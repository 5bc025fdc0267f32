import Dimpl.Dtls13.Engine.Closing
import Dimpl.Sample

/-!
# Application data around a close_notify

Around a close an engine hands out exactly the application data numbered in front of it, as long
as the close does not arrive behind data it is to cut off, and no datagram with application data
is dropped or replaced because of the handshake message it starts with.
-/

namespace Dimpl.Dtls13

open Nom Program

namespace Call

/-- The datagrams a call parses and the state it starts to parse them in. -/
def parses (e : Engine) : Call → Engine × List Bytes
  | .receivePacket datagram => (e.logEvent (.received datagram), [datagram])
  | .enablePeerEncryption =>
    ({ e with
        peerEncryptionEnabled := true
        queueRx := e.queueRx.takeWhile fun item => !hasProtected item },
      (((e.queueRx.dropWhile fun item => !hasProtected item).flatMap Incoming.records).filter
        fun r => !r.isHandled).map Record.buffer)
  | _ => (e, [])

end Call

namespace Engine

/-- The records found in what a call parses. -/
def brings (e : Engine) (call : Call) : List Record := (call.parses e).1.foundAll (call.parses e).2

/-- The record a poll hands out. -/
def handsOut (e : Engine) : Call → List Record
  | .pollOutput bufLen now =>
    match value? (Engine.pollOutput bufLen now) e with
    | some (.applicationData _) => e.pendingData.take 1
    | _ => []
  | _ => []

end Engine

/-- What a call does about a close: it hands out no application data behind it, loses none in
front of it, and a poll hands out the first that waits. -/
structure Heeds (e : Engine) (call : Call) : Prop where
  notLate : ∀ r ∈ e.handsOut call, r.late e.closeNotifySequence = false
  stays : e.peerEncryptionEnabled = true → ∀ r ∈ e.pendingData,
    r.late (e.exec call).closeNotifySequence = false →
      r ∈ (e.exec call).pendingData ∨ r ∈ e.handsOut call
  arrives : value? call.program e = some () → (e.exec call).peerEncryptionEnabled = true →
    ∀ r ∈ e.brings call, r.isData = true → r.late (e.exec call).closeNotifySequence = false →
      r ∈ (e.exec call).pendingData
  delivers : ∀ bufLen now output, call = .pollOutput bufLen now →
    value? (Engine.pollOutput bufLen now) e = some output →
    (∀ data, output = .applicationData data → ∃ r, e.pendingData.head? = some r ∧ data = r.fragment) ∧
      (e.releaseAppData = true → ∀ r, e.pendingData.head? = some r →
        output = .applicationData r.fragment)

/-- The condition on a call. Under protection a datagram does not close behind application data
with a larger number, and loses none; the same for the records that are parsed again when
encryption is enabled, which happens once, with no application data in front of them, before data
is released and after any retry. -/
def CloseCondition (e : Engine) : Call → Prop
  | .receivePacket datagram =>
    e.peerEncryptionEnabled = true → (e.logEvent (.received datagram)).Absorbs datagram
  | .enablePeerEncryption =>
    e.peerEncryptionEnabled = false ∧ e.EarlyDataReparsed ∧
      (Call.enablePeerEncryption.parses e).1.AbsorbsAll (Call.enablePeerEncryption.parses e).2
  | .releaseApplicationData => e.peerEncryptionEnabled = true
  | .resetForHelloRetry => e.peerEncryptionEnabled = false
  | _ => True

instance (e : Engine) (call : Call) : Decidable (CloseCondition e call) :=
  match call with
  | .receivePacket datagram => inferInstanceAs (Decidable
      (e.peerEncryptionEnabled = true → (e.logEvent (.received datagram)).Absorbs datagram))
  | .enablePeerEncryption => inferInstanceAs (Decidable (e.peerEncryptionEnabled = false ∧
      e.EarlyDataReparsed ∧
        (Call.enablePeerEncryption.parses e).1.AbsorbsAll (Call.enablePeerEncryption.parses e).2))
  | .releaseApplicationData => inferInstanceAs (Decidable (e.peerEncryptionEnabled = true))
  | .resetForHelloRetry => inferInstanceAs (Decidable (e.peerEncryptionEnabled = false))
  | .injectHybridClientHello _ | .setCipherSuite _ | .nextHandshake _ _ _
  | .advancePeerHandshakeSeq | .createHandshake _ _ | .createRecord _ _ _ _ | .sendAck
  | .flightBegin | .flightStopResendTimers | .cancelFlights | .abort | .installHandshakeKeys _ _
  | .installApplicationKeys _ _ | .createKeyUpdate _ | .updateRecvKeys
  | .handleTimeout _ | .pollOutput _ _ => isTrue trivial

section Calls

variable {e e' : Engine}

/-- What concerns received application data. -/
structure Intake where
  queueRx : List Incoming
  closeNotifySequence : Option Sequence
  peerEncryptionEnabled : Bool
  releaseAppData : Bool

/-- What an engine knows about received application data. -/
def Engine.intake (e : Engine) : Intake :=
  ⟨e.queueRx, e.closeNotifySequence, e.peerEncryptionEnabled, e.releaseAppData⟩

theorem Engine.InOrder.of_pending (inOrder : e.InOrder) (plain : e'.PlainData)
    (pending : ∀ r ∈ e'.pendingData, r ∈ e.pendingData)
    (closed : e'.closeNotifySequence = e.closeNotifySequence)
    (enabled : e'.peerEncryptionEnabled = e.peerEncryptionEnabled)
    (released : e'.releaseAppData = e.releaseAppData) : e'.InOrder := by
  refine ⟨plain, fun isReleased => ?_, fun isEnabled r waits => ?_⟩
  · exact enabled.trans (inOrder.released (released.symm.trans isReleased))
  · rw [closed]
    exact inOrder.timely (enabled.symm.trans isEnabled) r (pending r waits)

theorem Engine.InOrder.of_intake (inOrder : e.InOrder) (same : e'.intake = e.intake) :
    e'.InOrder := by
  have queue : e'.queueRx = e.queueRx := congrArg Intake.queueRx same
  have pending : Engine.SamePending e e' := .of_queue queue
  obtain ⟨waits, plain⟩ := pending inOrder.plain
  exact inOrder.of_pending plain (fun r member => waits ▸ member)
    (congrArg Intake.closeNotifySequence same) (congrArg Intake.peerEncryptionEnabled same)
    (congrArg Intake.releaseAppData same)

/-- A call that hands out and parses nothing and keeps what waits. -/
theorem heeds_of_pending {call : Call}
    (pending : e.peerEncryptionEnabled = true → ∀ r ∈ e.pendingData, r ∈ (e.exec call).pendingData)
    (brings : e.brings call = []) (handsOut : e.handsOut call = [])
    (noPoll : ∀ bufLen now, call ≠ .pollOutput bufLen now) : Heeds e call where
  notLate r member := by
    rw [handsOut] at member
    exact absurd member List.not_mem_nil
  stays enabled r waits _ := .inl (pending enabled r waits)
  arrives _ _ r member := by
    rw [brings] at member
    exact absurd member List.not_mem_nil
  delivers bufLen now _ isPoll := absurd isPoll (noPoll bufLen now)

/-- A poll takes the first that waits, or nothing while it must not or there is nothing. -/
inductive Engine.Polled (e : Engine) : Output → Engine → Prop where
  | taken {r : Record} {e' : Engine} (released : e.releaseAppData = true)
      (isFirst : e.pendingData.head? = some r)
      (stay : ∀ r' ∈ e.pendingData, r' = r ∨ r' ∈ e'.pendingData) :
      e.Polled (.applicationData r.fragment) e'
  | other {output : Output} {e' : Engine} (other : ∀ data, output ≠ .applicationData data)
      (nothing : e.releaseAppData = true → e.pendingData = [])
      (same : e'.pendingData = e.pendingData) : e.Polled output e'

theorem pollOutput_polled {bufLen : Nat} {now : Instant} (inOrder : e.InOrder) :
    Post (Engine.pollOutput bufLen now) e (fun output e' => e'.InOrder ∧ e.Polled output e')
      (fun _ e' => e'.InOrder ∧ e'.pendingData = e.pendingData) := by
  have purged := purge_pending inOrder.plain
  unfold Engine.pollOutput
  rw [post_bind, post_modify, post_bind]
  refine ((pollAppData_pending purged.2).and (pollAppData_unread e.purgeHandledQueueRx)).mono
    (fun data e₁ ⟨⟨plain₁, taken⟩, same⟩ => ?_) fun _ e₁ ⟨same, _⟩ => ?_
  · have closed₁ : e₁.closeNotifySequence = e.closeNotifySequence :=
      (congrArg Engine.closeNotifySequence same : _)
    have enabled₁ : e₁.peerEncryptionEnabled = e.peerEncryptionEnabled :=
      (congrArg Engine.peerEncryptionEnabled same : _)
    have released₁ : e₁.releaseAppData = e.releaseAppData :=
      (congrArg Engine.releaseAppData same : _)
    rw [purged.1] at taken
    cases data with
    | some data =>
        obtain ⟨released, r, isFirst, rfl, stay, come⟩ := taken
        exact ⟨inOrder.of_pending plain₁ come closed₁ enabled₁ released₁, .taken released isFirst stay⟩
    | none =>
        obtain ⟨rfl, nothing⟩ := taken
        have inOrder₁ : e.purgeHandledQueueRx.InOrder :=
          inOrder.of_pending plain₁ (fun r waits => purged.1 ▸ waits) closed₁ enabled₁ released₁
        -- The rest of the poll sees nothing of what is received.
        have scheduled : ∀ e : Engine, (e.maybeScheduleHandshakeAck now).intake = e.intake := by
          intro e
          have same : (e.maybeScheduleHandshakeAck now).unspoken.intake = e.unspoken.intake :=
            congrArg Engine.intake Engine.maybeScheduleHandshakeAck_unspoken
          exact same
        have packets : Along (Keeps Engine.intake) (pollPacketTx bufLen) :=
          pollPacketTx_unspoken.through Engine.intake fun _ => rfl
        have settled : ∀ {e₂ : Engine}, e₂.intake = e.purgeHandledQueueRx.intake →
            e₂.InOrder ∧ e₂.pendingData = e.pendingData := fun same₂ =>
          ⟨inOrder₁.of_intake same₂,
            (Engine.pendingData_of_queue (congrArg Intake.queueRx same₂)).trans purged.1⟩
        dsimp only
        rw [post_bind, post_modify, post_bind]
        refine (packets _).mono (fun packet e₂ same₂ => ?_) fun _ e₂ same₂ =>
          settled (same₂.trans (scheduled _))
        have same₂ : e₂.intake = e.purgeHandledQueueRx.intake := same₂.trans (scheduled _)
        have quiet : ∀ {output : Output} {e₃ : Engine}, e₃.intake = e.purgeHandledQueueRx.intake →
            (∀ data, output ≠ .applicationData data) → e₃.InOrder ∧ e.Polled output e₃ :=
          fun same₃ other => ⟨(settled same₃).1, .other other nothing (settled same₃).2⟩
        cases packet with
        | some packet => exact quiet same₂ fun _ => nofun
        | none =>
            dsimp only
            rw [post_bind, post_get, post_ite]
            refine ⟨fun _ => ?_, fun _ => quiet same₂ fun _ => nofun⟩
            rw [post_bind, post_set]
            exact quiet same₂ fun _ => nofun
  · rw [same]
    exact ⟨inOrder.of_pending purged.2 (fun r waits => purged.1 ▸ waits) rfl rfl rfl, purged.1⟩

theorem pollOutput_heeds {bufLen : Nat} {now : Instant} (inOrder : e.InOrder) :
    Heeds e (.pollOutput bufLen now) ∧ (e.exec (.pollOutput bufLen now)).InOrder := by
  have isFinal : e.exec (.pollOutput bufLen now) = finalState (Engine.pollOutput bufLen now) e :=
    finalState_discard
  have brings : e.brings (.pollOutput bufLen now) = [] := rfl
  have polled := @pollOutput_polled e bufLen now inOrder
  unfold Post at polled
  unfold finalState at isFinal
  cases outcome : Engine.pollOutput bufLen now e with
  | ok output e' =>
      rw [outcome] at polled isFinal
      obtain ⟨inOrder', polled⟩ := polled
      have value := value_of_ok outcome
      rw [isFinal]
      refine ⟨?_, inOrder'⟩
      cases polled with
      | @taken r _ released isFirst stay =>
          have handsOut : e.handsOut (.pollOutput bufLen now) = [r] := by
            obtain ⟨rest, pending⟩ := List.head?_eq_some_iff.mp isFirst
            simp [Engine.handsOut, value, pending]
          refine ⟨fun r' member => ?_, fun _ r' waits _ => ?_, fun _ _ r' member => ?_, ?_⟩
          · -- No data behind the close waits.
            rw [handsOut] at member
            rw [List.mem_singleton.mp member]
            exact inOrder.timely (inOrder.released released) r (List.mem_of_head? isFirst)
          · rw [handsOut, isFinal]
            exact (stay r' waits).symm.imp id List.mem_singleton.mpr
          · rw [brings] at member
            exact absurd member List.not_mem_nil
          · rintro _ _ output ⟨⟩ returned
            cases value.symm.trans returned
            refine ⟨?_, fun _ r' isFirst' => ?_⟩
            · rintro _ ⟨⟩
              exact ⟨r, isFirst, rfl⟩
            · cases isFirst.symm.trans isFirst'
              rfl
      | other other nothing same =>
          have handsOut : e.handsOut (.pollOutput bufLen now) = [] := by
            simp only [Engine.handsOut, value]
            cases output with
            | applicationData data => exact absurd rfl (other data)
            | _ => rfl
          refine ⟨fun r' member => ?_, fun _ r' waits _ => ?_, fun _ _ r' member => ?_, ?_⟩
          · rw [handsOut] at member
            exact absurd member List.not_mem_nil
          · rw [isFinal, same]
            exact .inl waits
          · rw [brings] at member
            exact absurd member List.not_mem_nil
          · rintro _ _ output ⟨⟩ returned
            cases value.symm.trans returned
            refine ⟨fun data isData => absurd isData (other data), fun released r isFirst => ?_⟩
            rw [nothing released] at isFirst
            cases isFirst
  | error fault e' =>
      rw [outcome] at polled isFinal
      obtain ⟨inOrder', same⟩ := polled
      have value : value? (Engine.pollOutput bufLen now) e = none := by
        unfold value?
        rw [outcome]
      have handsOut : e.handsOut (.pollOutput bufLen now) = [] := by
        simp only [Engine.handsOut, value]
      rw [isFinal]
      refine ⟨⟨fun r' member => ?_, fun _ r' waits _ => ?_, fun _ _ r' member => ?_, ?_⟩, inOrder'⟩
      · rw [handsOut] at member
        exact absurd member List.not_mem_nil
      · rw [isFinal, same]
        exact .inl waits
      · rw [brings] at member
        exact absurd member List.not_mem_nil
      · rintro _ _ output ⟨⟩ returned
        cases value.symm.trans returned

/-- A call that parses datagrams under protection and hands nothing out. -/
theorem heeds_of_gained {call : Call} {start : Engine} {packets : List Bytes}
    (parses : call.parses e = (start, packets))
    (isProgram : Post call.program e (fun _ e' => start.Gained (start.foundAll packets) e')
      fun _ e' => start.Gained [] e')
    (pending : e.peerEncryptionEnabled = true → ∀ r ∈ e.pendingData, r ∈ start.pendingData)
    (handsOut : e.handsOut call = []) (noPoll : ∀ bufLen now, call ≠ .pollOutput bufLen now) :
    Heeds e call ∧ (e.exec call).InOrder := by
  have brings : e.brings call = start.foundAll packets := by
    unfold Engine.brings
    rw [parses]
  have both : start.Gained [] (e.exec call) := by
    refine post_state.mp (isProgram.mono (fun _ e' gained => ?_) fun _ _ gained => gained)
    exact ⟨gained.inOrder, gained.enabled, gained.closed, gained.kept,
      fun _ member => absurd member List.not_mem_nil⟩
  refine ⟨⟨fun r member => ?_, fun enabled r waits _ => ?_, fun returned _ r member isData early => ?_,
    fun bufLen now _ isPoll => absurd isPoll (noPoll bufLen now)⟩, both.inOrder⟩
  · rw [handsOut] at member
    exact absurd member List.not_mem_nil
  · exact .inl (both.kept r (pending enabled r waits))
  · rw [brings] at member
    have outcome := ok_of_value returned
    unfold Post at isProgram
    rw [outcome] at isProgram
    exact isProgram.arrived r member isData early

theorem receivePacket_heeds {datagram : Bytes} (inOrder : e.InOrder)
    (condition : CloseCondition e (.receivePacket datagram)) :
    Heeds e (.receivePacket datagram) ∧ (e.exec (.receivePacket datagram)).InOrder := by
  have inOrder₀ : (e.logEvent (.received datagram)).InOrder := inOrder.of_intake rfl
  cases enabled : e.peerEncryptionEnabled with
  | true =>
      have parses : (Call.receivePacket datagram).parses e =
          (e.logEvent (.received datagram), [datagram]) := rfl
      refine heeds_of_gained parses ?_ (fun _ r waits => waits) rfl ?_
      swap
      · rintro _ _ ⟨⟩
      unfold Call.program receivePacket
      rw [post_bind, post_modify]
      refine (parsePacket_gained inOrder₀ enabled (condition enabled)).mono (fun _ e' gained => ?_)
        fun _ _ gained => gained
      unfold Engine.foundAll Engine.foundAll
      rwa [List.append_nil]
  | false =>
      have same : Keeps Engine.unreceived e (e.exec (.receivePacket datagram)) :=
        receivePacket_unreceived.finalState e
      have off : (e.exec (.receivePacket datagram)).peerEncryptionEnabled = false :=
        (congrArg Engine.peerEncryptionEnabled same : _).trans enabled
      have released : (e.exec (.receivePacket datagram)).releaseAppData = e.releaseAppData :=
        (congrArg Engine.releaseAppData same : _)
      have plain : (e.exec (.receivePacket datagram)).PlainData :=
        parsePacket_plain.finalState (e.logEvent (.received datagram)) inOrder.plain
      refine ⟨⟨fun r member => absurd member List.not_mem_nil, fun on => ?_, fun _ on => ?_,
        ?_⟩, plain, fun isReleased => ?_, fun on => ?_⟩
      · cases enabled.symm.trans on
      · cases off.symm.trans on
      · rintro _ _ _ ⟨⟩
      · cases enabled.symm.trans (inOrder.released (released.symm.trans isReleased))
      · cases off.symm.trans on

theorem enablePeerEncryption_heeds (inOrder : e.InOrder)
    (condition : CloseCondition e .enablePeerEncryption) :
    Heeds e .enablePeerEncryption ∧ (e.exec .enablePeerEncryption).InOrder := by
  obtain ⟨off, early, absorbed⟩ := condition
  have inOrder₀ : (Call.enablePeerEncryption.parses e).1.InOrder := by
    have subset : ∀ r ∈ (Call.enablePeerEncryption.parses e).1.rxRecords, r ∈ e.rxRecords := by
      intro r member
      obtain ⟨item, inPrefix, inItem⟩ := List.mem_flatMap.mp member
      exact List.mem_flatMap.mpr ⟨item, (List.takeWhile_prefix _).subset inPrefix, inItem⟩
    refine ⟨fun r member => inOrder.plain r (subset r member), fun _ => rfl, fun _ r waits => ?_⟩
    -- Nothing in front of the first protected datagram is application data.
    obtain ⟨member, pending⟩ := Engine.mem_pendingData.mp waits
    obtain ⟨item, inPrefix, inItem⟩ := List.mem_flatMap.mp member
    exact absurd (of_decide_eq_true (Record.isPending_iff.mp pending).1) (early item inPrefix r inItem)
  refine heeds_of_gained (Prod.eta _).symm ?_ (fun on => ?_) rfl fun _ _ => nofun
  · unfold Call.program enablePeerEncryption
    rw [post_bind, post_get]
    dsimp only
    rw [post_bind, post_set]
    exact reparse_gained inOrder₀ rfl absorbed
  · cases off.symm.trans on

/-- Every call heeds a close. -/
theorem exec_heeds {call : Call} (inOrder : e.InOrder) (condition : CloseCondition e call) :
    Heeds e call ∧ (e.exec call).InOrder := by
  have aside : ∀ {call : Call}, (e.exec call).intake = e.intake → e.brings call = [] →
      e.handsOut call = [] → (∀ bufLen now, call ≠ .pollOutput bufLen now) →
      Heeds e call ∧ (e.exec call).InOrder := by
    intro call same brings handsOut noPoll
    have pending := Engine.pendingData_of_queue (congrArg Intake.queueRx same)
    exact ⟨heeds_of_pending (fun _ r waits => pending.symm ▸ waits) brings handsOut noPoll,
      inOrder.of_intake same⟩
  have spoken : ∀ {program : EngineM Unit}, Along (Keeps Engine.unspoken) program →
      ∀ e, (finalState program e).intake = e.intake := fun keeps =>
    (keeps.through Engine.intake fun _ => rfl).finalState
  have uttered : ∀ {program : EngineM Unit}, Along (Keeps Engine.unuttered) program →
      ∀ e, (finalState program e).intake = e.intake := fun keeps =>
    (keeps.through Engine.intake fun _ => rfl).finalState
  have timed : ∀ {program : EngineM Unit}, Along (Keeps Engine.untimed) program →
      ∀ e, (finalState program e).intake = e.intake := fun keeps =>
    (keeps.through Engine.intake fun _ => rfl).finalState
  have keyed : ∀ {program : EngineM Unit}, Along (Keeps Engine.unkeyed) program →
      ∀ e, (finalState program e).intake = e.intake := fun keeps =>
    (keeps.through Engine.intake fun _ => rfl).finalState
  cases call with
  | receivePacket datagram => exact receivePacket_heeds inOrder condition
  | enablePeerEncryption => exact enablePeerEncryption_heeds inOrder condition
  | pollOutput bufLen now => exact pollOutput_heeds inOrder
  | nextHandshake wanted withTranscript allowUnknown =>
      have read : Along Engine.SamePending
          (Call.nextHandshake wanted withTranscript allowUnknown).program :=
        along_bind nextHandshakeWithOptions_samePending fun _ => along_pure
      have unread : Along (Keeps Engine.unread)
          (Call.nextHandshake wanted withTranscript allowUnknown).program :=
        along_bind nextHandshakeWithOptions_unread fun _ => along_pure
      obtain ⟨pending, plain⟩ := read.finalState e inOrder.plain
      have same := unread.finalState e
      refine ⟨heeds_of_pending (fun _ r waits => pending.symm ▸ waits) rfl rfl fun _ _ => nofun, ?_⟩
      exact inOrder.of_pending plain (fun r waits => pending ▸ waits)
        (congrArg Engine.closeNotifySequence same : _)
        (congrArg Engine.peerEncryptionEnabled same : _) (congrArg Engine.releaseAppData same : _)
  | releaseApplicationData =>
      have same : (e.exec .releaseApplicationData).queueRx = e.queueRx := rfl
      have pending := Engine.pendingData_of_queue same
      refine ⟨heeds_of_pending (fun _ r waits => waits) rfl rfl fun _ _ => nofun, ?_⟩
      exact ⟨inOrder.plain, fun _ => condition, inOrder.timely⟩
  | resetForHelloRetry =>
      have off : e.peerEncryptionEnabled = false := condition
      refine ⟨heeds_of_pending (fun enabled => ?_) rfl rfl fun _ _ => nofun, ?_, inOrder.released, ?_⟩
      · rw [off] at enabled
        cases enabled
      · intro r member
        obtain ⟨item, inQueue, inItem⟩ := List.mem_flatMap.mp member
        exact inOrder.plain r (List.mem_flatMap.mpr ⟨item, List.mem_of_mem_filter inQueue, inItem⟩)
      · intro enabled
        have on : e.peerEncryptionEnabled = true := enabled
        rw [off] at on
        cases on
  | createHandshake type body =>
      exact aside (uttered (createHandshake_unuttered along_pure) e) rfl rfl fun _ _ => nofun
  | createRecord contentType epoch saveFragment fragment =>
      exact aside (spoken createRecord_unspoken e) rfl rfl fun _ _ => nofun
  | sendAck => exact aside (spoken sendAck_unspoken e) rfl rfl fun _ _ => nofun
  | installHandshakeKeys client server =>
      exact aside (keyed installHandshakeKeys_unkeyed e) rfl rfl fun _ _ => nofun
  | installApplicationKeys client server =>
      exact aside (keyed installApplicationKeys_unkeyed e) rfl rfl fun _ _ => nofun
  | createKeyUpdate request =>
      exact aside (uttered createKeyUpdate_unuttered e) rfl rfl fun _ _ => nofun
  | updateRecvKeys => exact aside (keyed updateRecvKeys_unkeyed e) rfl rfl fun _ _ => nofun
  | handleTimeout now => exact aside (timed handleTimeout_untimed e) rfl rfl fun _ _ => nofun
  | injectHybridClientHello _ | setCipherSuite _ | advancePeerHandshakeSeq | flightBegin
  | flightStopResendTimers | cancelFlights | abort => exact aside rfl rfl rfl fun _ _ => nofun

theorem inOrder_new (config : Config) (certificate : DtlsCertificate) (rng : SeededRng)
    (isClient : Bool) : ((Engine.new config certificate rng).setClient isClient).InOrder :=
  ⟨fun _ member => absurd member List.not_mem_nil, nofun, nofun⟩

end Calls

/-- In a run whose calls meet the condition every call heeds a close. -/
theorem heeds_close (config : Config) (certificate : DtlsCertificate) (rng : SeededRng)
    (isClient : Bool) (calls : List Call)
    (meets : Meets Engine.exec CloseCondition
      ((Engine.new config certificate rng).setClient isClient) calls) :
    Meets Engine.exec Heeds ((Engine.new config certificate rng).setClient isClient) calls :=
  meets.of_invariant (fun _ _ inOrder condition => exec_heeds inOrder condition)
    (inOrder_new config certificate rng isClient)

namespace Close

/-- A server with the application keys of the sample client. -/
def sender (calls : List Call) : Engine :=
  run Engine.exec (Engine.new Sample.config Sample.certificate (Sample.rng 0))
    ([.setCipherSuite .aes128GcmSha256, .installApplicationKeys [1] [2]] ++ calls)

/-- Its close_notify, as its first record or behind the text "hi". -/
def alertDatagram (before : List Call) : Bytes :=
  (sender (before ++ [.createRecord .alert 3 false [1, 0]])).queueTx.headD []

/-- The text "hi" behind its close_notify. -/
def lateDatagram : Bytes :=
  (sender [.createRecord .alert 3 false [1, 0], .pollOutput 2000 0,
    .createRecord .applicationData 3 false [104, 105]]).queueTx.headD []

/-- A client with its handshake done that gets two datagrams. -/
def receives (first second : Bytes) : List Call :=
  [.setCipherSuite .aes128GcmSha256, .installHandshakeKeys [1] [2], .enablePeerEncryption,
   .installApplicationKeys [1] [2], .releaseApplicationData, .receivePacket first,
   .receivePacket second]

end Close

/-- The close comes behind the text it is numbered behind. -/
theorem heeds_close_sample :
    Meets Engine.exec Heeds
      ((Engine.new Sample.config Sample.certificate (Sample.rng 0)).setClient true)
      (Close.receives protectedDatagram (Close.alertDatagram
        [.createRecord .applicationData 3 false [104, 105], .pollOutput 2000 0]) ++
        [.pollOutput 2000 0]) :=
  heeds_close Sample.config Sample.certificate (Sample.rng 0) true _ (by decide +kernel)

/-- The text comes first, then the close that is numbered in front of it. -/
theorem not_heeds_close :
    ¬∀ (config : Config) (certificate : DtlsCertificate) (rng : SeededRng) (isClient : Bool)
      (calls : List Call),
      Meets Engine.exec Heeds ((Engine.new config certificate rng).setClient isClient) calls := by
  intro all
  have heeds : Heeds (sampleRun (Close.receives Close.lateDatagram (Close.alertDatagram [])))
      (.pollOutput 2000 0) :=
    (all Sample.config Sample.certificate (Sample.rng 0) true _).last
  have late : ∃ r ∈ (sampleRun (Close.receives Close.lateDatagram (Close.alertDatagram []))).handsOut
      (.pollOutput 2000 0), r.late (sampleRun (Close.receives Close.lateDatagram
        (Close.alertDatagram []))).closeNotifySequence = true := by
    decide +kernel
  obtain ⟨r, member, isLate⟩ := late
  rw [heeds.notLate r member] at isLate
  cases isLate

end Dimpl.Dtls13
