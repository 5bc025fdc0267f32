import Dimpl.Dtls13.Engine.Scope
import Dimpl.Dtls13.Engine.Timers

/-!
# The counters of an engine

The numbers of handshake messages and epochs, and whether a close was reported. Records come
and go without touching them; a few functions move one of them on.
-/

namespace Dimpl.Dtls13

open Nom Program

/-- What an engine counts beside records. -/
structure Ledger where
  nextHandshakeSeqNo : Nat
  peerHandshakeSeqNo : Nat
  appSendEpoch : Nat
  recvEpochs : List Nat
  closeNotifyReported : Bool

/-- The ledger of an engine. -/
def Engine.ledger (e : Engine) : Ledger where
  nextHandshakeSeqNo := e.nextHandshakeSeqNo
  peerHandshakeSeqNo := e.peerHandshakeSeqNo
  appSendEpoch := e.appSendEpoch
  recvEpochs := e.appRecvKeys.map RecvEpochEntry.epoch
  closeNotifyReported := e.closeNotifyReported

section Sending

theorem createCiphertextRecord_ledger {contentType : ContentType} {epoch : Nat}
    {saveFragment : Bool} {fragment : Bytes} :
    Along (Keeps Engine.ledger) (createCiphertextRecord contentType epoch saveFragment fragment) :=
  createCiphertextRecord_unspoken.through Engine.ledger fun _ => rfl

theorem createRecord_ledger {contentType : ContentType} {epoch : Nat} {saveFragment : Bool}
    {fragment : Bytes} :
    Along (Keeps Engine.ledger) (createRecord contentType epoch saveFragment fragment) :=
  createRecord_unspoken.through Engine.ledger fun _ => rfl

theorem createFragments_ledger {header : Header} {epoch fixedOverhead : Nat} {body : Bytes}
    {fuel offset : Nat} :
    Along (Keeps Engine.ledger) (createFragments header epoch fixedOverhead body fuel offset) :=
  createFragments_unspoken.through Engine.ledger fun _ => rfl

theorem sendAck_ledger : Along (Keeps Engine.ledger) sendAck :=
  sendAck_unspoken.through Engine.ledger fun _ => rfl

/-- A message that was built takes the next number, however the rest of it goes. -/
theorem createHandshake_ledger {type : MessageType} {writeBody : EngineM Bytes}
    (readOnly : ReadOnly writeBody) {e : Engine} :
    Post (createHandshake type writeBody) e
      (fun _ e' => e'.ledger =
        { e.ledger with nextHandshakeSeqNo := (e.nextHandshakeSeqNo + 1) % 65536 })
      (fun _ e' => (value? writeBody e = none ∧ e'.ledger = e.ledger) ∨ e'.ledger =
        { e.ledger with nextHandshakeSeqNo := (e.nextHandshakeSeqNo + 1) % 65536 }) := by
  unfold createHandshake
  rw [post_bind]
  refine ((readOnly e).and post_self).mono ?_ ?_
  · rintro body _ ⟨rfl, -⟩
    rw [post_bind, post_get]
    dsimp only
    rw [post_bind, post_set]
    have rest : ∀ header epoch, Along (Keeps Engine.ledger)
        (if epoch = 0 then
          createFragments header epoch (Dtls13Record.plaintextHeaderLen + 12) body 13 0
        else do
          let suite ← suiteProvider
          createFragments header epoch (5 + 12 + (suite.tagLen + 1)) body 13 0) := fun _ _ =>
      along_ite (fun _ => createFragments_ledger) fun _ =>
        along_bind suiteProvider_readOnly.along fun _ => createFragments_ledger
    exact (rest _ _ _).mono (fun _ _ kept => kept) fun _ _ kept => .inr kept
  · rintro _ _ ⟨rfl, failed⟩
    refine .inl ⟨?_, rfl⟩
    unfold value?
    rw [failed]

end Sending

section Keys

theorem installHandshakeKeys_ledger {client server : Bytes} :
    Along (Keeps Engine.ledger) (installHandshakeKeys client server) := by
  have derived : ∀ secret, Along (Keeps Engine.ledger) (deriveEpochKeys 2 secret) := by
    intro secret e
    refine deriveEpochKeys_post.mono ?_ ?_
    · rintro keys _ ⟨-, rfl⟩
      rfl
    · rintro _ _ rfl
      rfl
  refine along_bind along_get fun e => along_bind (derived _) fun _ => ?_
  refine along_bind (along_modify fun _ => rfl) fun _ => ?_
  exact along_bind (derived _) fun _ => along_modify fun _ => rfl

theorem deriveApplicationSecrets_ledger {handshakeSecret : Bytes} :
    Along (Keeps Engine.ledger) (deriveApplicationSecrets handshakeSecret) :=
  deriveApplicationSecrets_along fun _ _ => rfl

theorem replaceTranscriptWithMessageHash_ledger {splitAt : Nat} :
    Along (Keeps Engine.ledger) (replaceTranscriptWithMessageHash splitAt) :=
  replaceTranscriptWithMessageHash_along fun _ _ => rfl

/-- The application epochs start with the third. -/
theorem installApplicationKeys_ledger {client server : Bytes} {e : Engine} :
    Post (installApplicationKeys client server) e
      (fun _ e' => e'.ledger = { e.ledger with
        appSendEpoch := 3
        recvEpochs := e.ledger.recvEpochs ++ [3] })
      (fun _ e' => e'.ledger = e.ledger) := by
  unfold installApplicationKeys
  rw [post_bind, post_get]
  dsimp only
  rw [post_bind]
  refine deriveEpochKeys_post.mono ?_ fun _ _ same => same ▸ rfl
  rintro send _ ⟨-, rfl⟩
  rw [post_bind, post_modify, post_bind]
  refine deriveEpochKeys_post.mono ?_ fun _ _ same => same ▸ rfl
  rintro recv _ ⟨-, rfl⟩
  rw [post_bind]
  refine pushRecvEpoch_post.mono ?_ fun _ _ same => same ▸ rfl
  rintro _ _ rfl
  rw [post_modify]
  simp [Engine.ledger, RecvEpochEntry.fresh]

/-- The receive epochs behind a KeyUpdate of the peer: the oldest of four makes room. -/
def rotated (epochs : List Nat) : List Nat :=
  (if epochs.length ≥ 4 then epochs.tail else epochs) ++ [(epochs.getLast?.getD 0 + 1) % 65536]

/-- The next receive epoch is the one behind the newest; an error may have made room for it. -/
theorem updateRecvKeys_ledger {e : Engine} :
    Post updateRecvKeys e
      (fun _ e' => e'.ledger = { e.ledger with recvEpochs := rotated e.ledger.recvEpochs } ∧
        e.ledger.recvEpochs ≠ [])
      (fun _ e' => e'.ledger = e.ledger ∨ (4 ≤ e.ledger.recvEpochs.length ∧
        e'.ledger = { e.ledger with recvEpochs := e.ledger.recvEpochs.tail })) := by
  unfold updateRecvKeys
  rw [post_bind, post_get, post_bind, post_orThrow]
  refine ⟨fun latest isLatest => ?_, fun _ => .inl rfl⟩
  rw [post_bind]
  refine (deriveNextTrafficSecret_readOnly e).mono ?_ fun _ _ same => same ▸ .inl rfl
  rintro nextSecret _ rfl
  rw [post_bind]
  refine deriveEpochKeys_post.mono ?_ ?_
  · rintro new _ ⟨-, rfl⟩
    rw [post_bind, post_modify]
    have nonempty : e.appRecvKeys ≠ [] := by
      rintro none
      simp [none] at isLatest
    have isNewest : (e.appRecvKeys.map RecvEpochEntry.epoch).getLast?.getD 0 = latest.epoch := by
      simp [List.getLast?_map, isLatest]
    refine pushRecvEpoch_post.mono ?_ ?_
    · rintro _ _ rfl
      refine ⟨?_, by simpa [Engine.ledger] using nonempty⟩
      simp only [Engine.ledger, rotated, isNewest, List.length_map]
      split <;> simp [RecvEpochEntry.fresh]
    · rintro _ _ rfl
      simp only [Engine.ledger]
      split
      · rename_i full
        exact .inr ⟨by simpa using full, by simp⟩
      · exact .inl rfl
  · rintro _ _ rfl
    exact .inl rfl

/-- The send epoch moves on, or the keys were lost on the way. -/
theorem updateSendKeys_ledger {e : Engine} :
    Post updateSendKeys e
      (fun _ e' => e'.ledger = { e.ledger with appSendEpoch := (e.appSendEpoch + 1) % 65536 })
      (fun _ e' => e'.ledger = e.ledger) := by
  unfold updateSendKeys
  rw [post_bind, post_get, post_bind, post_orThrow]
  refine ⟨fun old _ => ?_, fun _ => rfl⟩
  rw [post_bind, post_modify, post_bind]
  refine (deriveNextTrafficSecret_readOnly _).mono ?_ fun _ _ same => same ▸ rfl
  rintro nextSecret _ rfl
  rw [post_bind]
  refine deriveEpochKeys_post.mono ?_ fun _ _ same => same ▸ rfl
  rintro new _ ⟨-, rfl⟩
  rw [post_modify]
  rfl

/-- A KeyUpdate takes a number, also when it cannot be sent, and then an epoch. -/
theorem createKeyUpdate_ledger {request : KeyUpdateRequest} {e : Engine} :
    Post (createKeyUpdate request) e
      (fun _ e' => e'.ledger = { e.ledger with
        nextHandshakeSeqNo := (e.nextHandshakeSeqNo + 1) % 65536
        appSendEpoch := (e.appSendEpoch + 1) % 65536 })
      (fun _ e' => e'.ledger =
        { e.ledger with nextHandshakeSeqNo := (e.nextHandshakeSeqNo + 1) % 65536 }) := by
  unfold createKeyUpdate
  simp only [post_bind, post_modify, post_get, post_set]
  refine (createCiphertextRecord_ledger _).mono (fun _ e₁ kept => ?_) fun _ _ kept => kept
  have epoch : e₁.appSendEpoch = e.appSendEpoch := congrArg Ledger.appSendEpoch kept
  refine updateSendKeys_ledger.mono (fun _ _ moved => ?_) fun _ _ same => same.trans kept
  rw [moved, epoch, show e₁.ledger = _ from kept]
  rfl

end Keys

section Receiving

/-- Of the receive entries the ledger has the epochs only. -/
theorem Engine.unreceived_ledger {e : Engine} : e.unreceived.ledger = e.ledger := by
  simp only [Engine.ledger, Engine.unreceived, List.map_map]
  rfl

theorem receivePacket_ledger {datagram : Bytes} :
    Along (Keeps Engine.ledger) (receivePacket datagram) :=
  receivePacket_unreceived.through Engine.ledger fun _ => Engine.unreceived_ledger

theorem enablePeerEncryption_ledger : Along (Keeps Engine.ledger) enablePeerEncryption := by
  have again : ∀ buffers, Along (Keeps Engine.ledger) (reparse buffers) :=
    fun _ => reparse_unreceived.through Engine.ledger fun _ => Engine.unreceived_ledger
  refine along_get_bind fun e => ?_
  dsimp only
  rw [post_bind, post_set]
  exact (again _).after rfl

end Receiving

section Consuming

variable {e : Engine}

theorem nextHandshakeWithOptions_ledger {wanted : MessageType} {withTranscript allowUnknown : Bool} :
    Along (Keeps Engine.ledger) (nextHandshakeWithOptions wanted withTranscript allowUnknown) :=
  nextHandshakeWithOptions_unread.through Engine.ledger fun _ => rfl

theorem Engine.maybeScheduleHandshakeAck_ledger {now : Instant} :
    (e.maybeScheduleHandshakeAck now).ledger = e.ledger := by
  have same : (e.maybeScheduleHandshakeAck now).unspoken.ledger = e.unspoken.ledger :=
    congrArg Engine.ledger Engine.maybeScheduleHandshakeAck_unspoken
  exact same

theorem handleTimeout_ledger {now : Instant} :
    Along (Keeps Engine.ledger) (Engine.handleTimeout now) :=
  handleTimeout_untimed.through Engine.ledger fun _ => rfl

/-- A close is reported when there is one and it was not reported before. -/
theorem pollOutput_ledger {bufLen : Nat} {now : Instant} :
    Post (Engine.pollOutput bufLen now) e
      (fun output e' => (output ≠ .closeNotify ∧ e'.ledger = e.ledger) ∨
        (output = .closeNotify ∧ e.closeNotifyReported = false ∧
          e'.ledger = { e.ledger with closeNotifyReported := true }))
      (fun _ e' => e'.ledger = e.ledger) := by
  have data : Along (Keeps Engine.ledger) (pollAppData bufLen) :=
    pollAppData_unread.through Engine.ledger fun _ => rfl
  have packets : Along (Keeps Engine.ledger) (pollPacketTx bufLen) :=
    pollPacketTx_unspoken.through Engine.ledger fun _ => rfl
  unfold Engine.pollOutput
  rw [post_bind, post_modify, post_bind]
  have purged : e.purgeHandledQueueRx.ledger = e.ledger := rfl
  refine (data _).mono (fun found e₁ kept => ?_) fun _ _ kept => kept.trans purged
  have kept := kept.trans purged
  cases found with
  | some bytes => exact .inl ⟨Output.noConfusion, kept⟩
  | none =>
      dsimp only
      rw [post_bind, post_modify, post_bind]
      refine (packets _).mono (fun found e₂ more => ?_) fun _ _ more => ?_
      · have more : e₂.ledger = e.ledger :=
          (more.trans Engine.maybeScheduleHandshakeAck_ledger).trans kept
        cases found with
        | some bytes => exact .inl ⟨Output.noConfusion, more⟩
        | none =>
            dsimp only
            rw [post_bind, post_get, post_ite]
            refine ⟨fun closes => ?_, fun _ => .inl ⟨Output.noConfusion, more⟩⟩
            rw [post_bind, post_set]
            have unreported : e₂.closeNotifyReported = false := by
              simp only [Bool.and_eq_true, Bool.not_eq_true'] at closes
              exact closes.2
            have reported : e₂.closeNotifyReported = e.closeNotifyReported :=
              congrArg Ledger.closeNotifyReported more
            refine .inr ⟨rfl, reported.symm.trans unreported, ?_⟩
            rw [← more]
            rfl
      · exact (more.trans Engine.maybeScheduleHandshakeAck_ledger).trans kept

end Consuming

end Dimpl.Dtls13
