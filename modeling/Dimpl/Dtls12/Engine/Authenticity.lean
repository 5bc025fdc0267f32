import Dimpl.Dtls12.Engine.Run
import Dimpl.Sample

/-!
# What is delivered was opened

Application data that `poll_app_data` hands out is what `decrypt_data` returned
for a received record, as long as `enable_peer_encryption` finds no application
data in the part of the queue that it does not parse again.
-/

namespace Dimpl.Dtls12

open Nom Program

/-- Bytes that came from the network: a datagram, a record cut out of it, or the
buffer of such a record after it was opened. -/
inductive Received (log : List Event) : Bytes → Prop where
  | datagram {bytes : Bytes} (event : .received bytes ∈ log) : Received log bytes
  | record {bytes slice : Bytes} (outer : Received log bytes) (inside : slice ∈ recordSlices bytes) :
      Received log slice
  | rewritten {type : ContentType} {sequence : Sequence} {record plaintext : Bytes} {ciph : Nat}
      (event : .opened type sequence record plaintext ∈ log) (origin : Received log record) :
      Received log (openedBuffer record plaintext ciph)

/-- The bytes are what came out of a received application data record when it was
opened. -/
def AuthenticData (log : List Event) (data : Bytes) : Prop :=
  ∃ sequence record, .opened .applicationData sequence record data ∈ log ∧ Received log record

/-- Everything queued came from the network, application data was opened once
encryption is on, and so was all that was delivered. -/
structure Engine.AuthInv (e : Engine) : Prop where
  buffers : ∀ r ∈ e.rxRecords, Received e.log r.buffer
  data : ∀ r ∈ e.rxRecords, r.record.contentType = .applicationData →
    e.peerEncryptionEnabled = false ∨ Opened e.log r
  released : e.releaseAppData = true → e.peerEncryptionEnabled = true
  opened : ∀ type sequence record plaintext, .opened type sequence record plaintext ∈ e.log →
    Received e.log record
  delivered : ∀ data, .delivered data ∈ e.log → AuthenticData e.log data

/-- No application data is queued in front of the first datagram with a record of
epoch 1. -/
def Engine.EarlyDataReparsed (e : Engine) : Prop :=
  ∀ item ∈ e.queueRx.takeWhile (fun item => !hasEpoch1 item), ∀ r ∈ item.records,
    r.record.contentType ≠ .applicationData

instance (e : Engine) : Decidable e.EarlyDataReparsed :=
  inferInstanceAs (Decidable (∀ item ∈ e.queueRx.takeWhile (fun item => !hasEpoch1 item),
    ∀ r ∈ item.records, r.record.contentType ≠ .applicationData))

/-- The condition on a call: encryption is enabled before data is released, and
first enabled with no application data in the part of the queue that is kept. -/
def AuthCondition (e : Engine) : Call → Prop
  | .enablePeerEncryption => e.peerEncryptionEnabled = true ∨ e.EarlyDataReparsed
  | .releaseApplicationData => e.peerEncryptionEnabled = true
  | _ => True

instance (e : Engine) (call : Call) : Decidable (AuthCondition e call) :=
  match call with
  | .enablePeerEncryption =>
    inferInstanceAs (Decidable (e.peerEncryptionEnabled = true ∨ e.EarlyDataReparsed))
  | .releaseApplicationData => inferInstanceAs (Decidable (e.peerEncryptionEnabled = true))
  | .receivePacket _ | .setClient _ | .setCipherSuite _ | .nextHandshake _ | .nextChangeCipherSpec
  | .dropPendingCcs | .createHandshake _ _ | .createRecord _ _ _ _ | .flightBegin
  | .flightStopResendTimers | .discardPendingWrites | .abort | .resetServerForHelloVerifyRequest
  | .resetClientForHelloVerifyRequest | .setNextHandshakeSeqNo _ | .advanceEpoch0Sequence
  | .addToTranscript _ | .random _ | .context _ | .handleTimeout _ | .pollOutput _ _ =>
    isTrue trivial

section Invariant

variable {S : Bytes → Prop} {K : Prop} {rules : Rules} {e e' : Engine}

theorem Received.mono {log log' : List Event} {bytes : Bytes} (received : Received log bytes)
    (more : ∀ event ∈ log, event ∈ log') : Received log' bytes := by
  induction received with
  | datagram event => exact .datagram (more _ event)
  | record _ inside inductionHypothesis => exact .record inductionHypothesis inside
  | rewritten event _ inductionHypothesis => exact .rewritten (more _ event) inductionHypothesis

theorem AuthenticData.mono {log log' : List Event} {data : Bytes} (authentic : AuthenticData log data)
    (more : ∀ event ∈ log, event ∈ log') : AuthenticData log' data := by
  obtain ⟨sequence, record, event, received⟩ := authentic
  exact ⟨sequence, record, more _ event, received.mono more⟩

/-- Being opened depends on the content of a record only. -/
theorem Opened.of_content {log : List Event} {r₀ r : Record} (opened : Opened log r₀)
    (content : r₀.content = r.content) : Opened log r := by
  simp only [Record.content, Prod.mk.injEq] at content
  obtain ⟨buffer, header, _⟩ := content
  simpa [Opened, Record.fragment, Record.sequence, buffer, header] using opened

/-- Where a record of a sourced datagram comes from. -/
theorem Sourced.record {item : Incoming} (sourced : Sourced S e item) {r : Record}
    (inItem : r ∈ item.records) :
    (∃ r₀ ∈ e.rxRecords, r₀.content = r.content) ∨ ∃ r₀, Admitted S e r₀ ∧ r₀.content = r.content := by
  have mapped : r.content ∈ item.records.map Record.content := List.mem_map_of_mem inItem
  rcases sourced with ⟨item₀, queued, same⟩ | ⟨incoming, admitted, same⟩
  · rw [← same] at mapped
    obtain ⟨r₀, inItem₀, content⟩ := List.mem_map.mp mapped
    exact .inl ⟨r₀, List.mem_flatMap.mpr ⟨item₀, queued, inItem₀⟩, content⟩
  · rw [← same] at mapped
    obtain ⟨r₀, inIncoming, content⟩ := List.mem_map.mp mapped
    exact .inr ⟨r₀, admitted r₀ inIncoming, content⟩

/-- The history grew by events that open and deliver nothing, and the queue and
the flags changed in no way that matters. -/
theorem Engine.AuthInv.of_frame (inv : e.AuthInv)
    (more : ∀ event ∈ e.log, event ∈ e'.log)
    (news : ∀ event ∈ e'.log, event ∈ e.log ∨
      (∀ type sequence record plaintext, event ≠ .opened type sequence record plaintext) ∧
        ∀ data, event ≠ .delivered data)
    (records : ∀ r ∈ e'.rxRecords, ∃ r₀ ∈ e.rxRecords, r₀.content = r.content)
    (data : ∀ r ∈ e'.rxRecords, r.record.contentType = .applicationData →
      e'.peerEncryptionEnabled = false ∨ e'.peerEncryptionEnabled = e.peerEncryptionEnabled)
    (released : e'.releaseAppData = true → e'.peerEncryptionEnabled = true) : e'.AuthInv where
  buffers := by
    intro r member
    obtain ⟨r₀, queued, content⟩ := records r member
    have buffer : r₀.buffer = r.buffer := congrArg Prod.fst content
    exact buffer ▸ (inv.buffers r₀ queued).mono more
  data := by
    intro r member isData
    rcases data r member isData with off | sameFlag
    · exact .inl off
    · obtain ⟨r₀, queued, content⟩ := records r member
      have header : r₀.record = r.record := congrArg (fun c => c.2.1) content
      refine (inv.data r₀ queued (header ▸ isData)).imp (sameFlag.trans ·) fun opened => ?_
      exact (opened.of_content content).mono more
  released := released
  opened := by
    intro type sequence record plaintext event
    rcases news _ event with old | ⟨notOpened, _⟩
    · exact (inv.opened type sequence record plaintext old).mono more
    · exact absurd rfl (notOpened type sequence record plaintext)
  delivered := by
    intro data event
    rcases news _ event with old | ⟨_, notDelivered⟩
    · exact (inv.delivered data old).mono more
    · exact absurd rfl (notDelivered data)

/-- An event that neither opens nor delivers. -/
theorem Engine.AuthInv.of_event (inv : e.AuthInv) {event : Event}
    (notOpened : ∀ type sequence record plaintext, event ≠ .opened type sequence record plaintext)
    (notDelivered : ∀ data, event ≠ .delivered data) : (e.logEvent event).AuthInv := by
  refine inv.of_frame (fun _ member => List.mem_append_left _ member) (fun other member => ?_)
    (fun r member => ⟨r, member, rfl⟩) (fun _ _ _ => .inr rfl) inv.released
  rcases List.mem_append.mp member with old | new
  · exact .inl old
  · cases List.mem_singleton.mp new
    exact .inr ⟨notOpened, notDelivered⟩

/-- Changes of fields the invariant does not look at. -/
theorem Engine.AuthInv.of_same (inv : e.AuthInv) (queue : e'.queueRx = e.queueRx)
    (enabled : e'.peerEncryptionEnabled = e.peerEncryptionEnabled)
    (released : e'.releaseAppData = e.releaseAppData) (log : e'.log = e.log) : e'.AuthInv := by
  have records : e'.rxRecords = e.rxRecords := by simp [Engine.rxRecords, queue]
  refine inv.of_frame (fun _ member => log ▸ member) (fun _ member => .inl (log ▸ member))
    (fun r member => ⟨r, records ▸ member, rfl⟩) (fun _ _ _ => .inr enabled) fun isReleased => ?_
  exact enabled.trans (inv.released (released.symm.trans isReleased))

/-- What is admitted came from the network, and application data was opened when
encryption is on. -/
theorem Admitted.authentic {r : Record} (admitted : Admitted S e r) (inv : e.AuthInv)
    (slices : ∀ slice, S slice → Received e.log slice) :
    Received e.log r.buffer ∧ (r.record.contentType = .applicationData →
      e.peerEncryptionEnabled = false ∨ Opened e.log r) := by
  cases admitted with
  | raw slice parsed clear =>
      refine ⟨slices _ slice, fun isData => ?_⟩
      rcases clear with plaintext | off
      · -- A record of epoch 0 is no application data.
        rcases (Record.ofBuffer_ok parsed).2.2.2 with isProtected | types
        · exact absurd plaintext isProtected
        · rw [isData] at types
          exact absurd types (by decide)
      · exact .inl off
  | opened opened number header =>
      refine ⟨?_, fun _ => .inr opened⟩
      obtain ⟨record, ciph, event, buffer⟩ := opened
      rw [buffer]
      exact .rewritten event (inv.opened _ _ _ _ event)

theorem Step.authInv (step : Step S K e e') (inv : e.AuthInv)
    (slices : ∀ slice, S slice → Received e.log slice) : e'.AuthInv := by
  cases step with
  | other same =>
      exact inv.of_same (congrArg Core.queueRx same) (congrArg Core.peerEncryptionEnabled same)
        (congrArg Core.releaseAppData same) (congrArg Core.log same)
  | @opened record plaintext ciphertext aad nonce r slice parsed fresh decrypted enabled =>
      have more : ∀ event ∈ e.log, event ∈ ((e.noteOpened r.record).logEvent
          (.opened r.record.contentType r.sequence record plaintext)).log :=
        fun _ member => List.mem_append_left _ member
      refine ⟨fun r' member => (inv.buffers r' member).mono more,
        fun r' member isData => (inv.data r' member isData).imp id (·.mono more),
        inv.released, ?_, ?_⟩
      · intro type' sequence' record' plaintext' event
        rcases List.mem_append.mp event with old | new
        · exact (inv.opened _ _ _ _ old).mono more
        · cases List.mem_singleton.mp new
          exact (slices _ slice).mono more
      · intro data event
        rcases List.mem_append.mp event with old | new
        · exact (inv.delivered data old).mono more
        · cases List.mem_singleton.mp new
  | @queue queueRx sources =>
      refine ⟨fun r member => ?_, fun r member isData => ?_, inv.released, inv.opened, inv.delivered⟩
      · obtain ⟨item, inQueue, inItem⟩ := List.mem_flatMap.mp member
        rcases Sourced.record (sources item inQueue) inItem with
          ⟨r₀, queued, content⟩ | ⟨r₀, admitted, content⟩
        · have buffer : r₀.buffer = r.buffer := congrArg Prod.fst content
          exact buffer ▸ inv.buffers r₀ queued
        · have buffer : r₀.buffer = r.buffer := congrArg Prod.fst content
          exact buffer ▸ (admitted.authentic inv slices).1
      · obtain ⟨item, inQueue, inItem⟩ := List.mem_flatMap.mp member
        rcases Sourced.record (sources item inQueue) inItem with
          ⟨r₀, queued, content⟩ | ⟨r₀, admitted, content⟩
        · have header : r₀.record = r.record := congrArg (fun c => c.2.1) content
          exact (inv.data r₀ queued (header ▸ isData)).imp id (·.of_content content)
        · have header : r₀.record = r.record := congrArg (fun c => c.2.1) content
          exact ((admitted.authentic inv slices).2 (header ▸ isData)).imp id (·.of_content content)
  | @delivered r released queued isData =>
      have more : ∀ event ∈ e.log, event ∈ (e.logEvent (.delivered r.fragment)).log :=
        fun _ member => List.mem_append_left _ member
      have enabled := inv.released released
      refine ⟨fun r' member => (inv.buffers r' member).mono more,
        fun r' member isData' => (inv.data r' member isData').imp id (·.mono more),
        inv.released, ?_, ?_⟩
      · intro type sequence record plaintext event
        rcases List.mem_append.mp event with old | new
        · exact (inv.opened _ _ _ _ old).mono more
        · cases List.mem_singleton.mp new
      · intro data event
        rcases List.mem_append.mp event with old | new
        · exact (inv.delivered data old).mono more
        · cases List.mem_singleton.mp new
          obtain ⟨record, ciph, event, _⟩ :=
            (inv.data r queued isData).resolve_left (by simp [enabled])
          rw [isData] at event
          exact ⟨r.sequence, record, more _ event, (inv.opened _ _ _ _ event).mono more⟩
  | assembled carried => exact inv.of_event (by simp) (by simp)
  | told => exact inv.of_same rfl rfl rfl rfl
  | sealed allowed isNonce =>
      have counted : ({ e with sequenceEpochN := e.sequenceEpochN + 1 } : Engine).AuthInv :=
        inv.of_same rfl rfl rfl rfl
      exact counted.of_event (by simp) (by simp)

/-- Rules under which everything that is parsed came from the network and the
condition is met. -/
def authRules (log : List Event) : Rules where
  slices := Received log
  plain := False
  mayEnable := fun e => e.peerEncryptionEnabled = true ∨ e.EarlyDataReparsed
  mayRelease := fun e => e.peerEncryptionEnabled = true
  mayRekey := fun _ => True
  maySelect := fun _ => True
  mayTime := fun _ => True

/-- Changes only add to the history. -/
theorem Change.mono_log (change : Change rules e e') : ∀ event ∈ e.log, event ∈ e'.log := by
  cases change with
  | quiet step => exact step.grows.log
  | received => exact fun _ member => List.mem_append_left _ member
  | _ => exact fun _ member => member

theorem Change.authInv {log : List Event} (change : Change (authRules log) e e') (inv : e.AuthInv)
    (past : ∀ event ∈ log, event ∈ e.log) : e'.AuthInv := by
  cases change with
  | quiet step => exact step.authInv inv fun slice received => received.mono past
  | received => exact inv.of_event (by simp) (by simp)
  | released allowed =>
      exact inv.of_frame (fun _ member => member) (fun _ member => .inl member)
        (fun r member => ⟨r, member, rfl⟩) (fun _ _ _ => .inr rfl) fun _ => allowed
  | enabled allowed =>
      have kept : ∀ r ∈ (e.queueRx.takeWhile fun item => !hasEpoch1 item).flatMap
          Incoming.records, r ∈ e.rxRecords := by
        intro r member
        obtain ⟨item, inPrefix, inItem⟩ := List.mem_flatMap.mp member
        exact List.mem_flatMap.mpr ⟨item, (List.takeWhile_prefix _).subset inPrefix, inItem⟩
      refine inv.of_frame (fun _ member => member) (fun _ member => .inl member)
        (fun r member => ⟨r, kept r member, rfl⟩) (fun r member isData => .inr ?_) fun _ => rfl
      rcases allowed with already | reparsed
      · exact already.symm
      · obtain ⟨item, inPrefix, inItem⟩ := List.mem_flatMap.mp member
        exact absurd isData (reparsed item inPrefix r inItem)
  | rekeyed allowed => exact inv.of_same rfl rfl rfl rfl
  | selected allowed lengths => exact inv.of_same rfl rfl rfl rfl
  | retold allowed => exact inv.of_same rfl rfl rfl rfl
  | timed allowed => exact inv.of_same rfl rfl rfl rfl

theorem Changes.authInv {log : List Event} (changes : Changes (authRules log) e e') (inv : e.AuthInv)
    (past : ∀ event ∈ log, event ∈ e.log) :
    e'.AuthInv ∧ ∀ event ∈ log, event ∈ e'.log := by
  induction changes with
  | refl => exact ⟨inv, past⟩
  | tail _ change inductionHypothesis =>
      obtain ⟨inv, past⟩ := inductionHypothesis
      exact ⟨change.authInv inv past, fun event member => change.mono_log event (past event member)⟩

/-- The rules allow what meets the condition, apart from new datagrams. -/
theorem AuthCondition.allow {call : Call} (inv : e.AuthInv) (condition : AuthCondition e call) :
    (∃ datagram, call = .receivePacket datagram) ∨ (authRules e.log).Allow e call := by
  cases call with
  | receivePacket datagram => exact .inl ⟨datagram, rfl⟩
  | enablePeerEncryption =>
      exact .inr ⟨condition, fun r member slice inside => .record (inv.buffers r member) inside⟩
  | releaseApplicationData => exact .inr condition
  | _ => exact .inr trivial

/-- A call that meets the condition keeps the invariant. -/
theorem exec_authInv {call : Call} (inv : e.AuthInv) (condition : AuthCondition e call) :
    (e.exec call).AuthInv := by
  rcases condition.allow inv with ⟨datagram, rfl⟩ | allow
  · -- The datagram enters the history before it is parsed.
    have logged : (e.logEvent (.received datagram)).AuthInv := inv.of_event (by simp) (by simp)
    have quiet : Along (Quiet (authRules (e.logEvent (.received datagram)).log).slices False)
        (parsePacket datagram) :=
      parsePacket_quiet fun slice member => .record (.datagram (by simp [Engine.logEvent])) member
    have steps := (post_state.mp (quiet (e.logEvent (.received datagram)))
      fun plain => plain.elim).1
    have changes : Changes (authRules (e.logEvent (.received datagram)).log) _ _ :=
      Relation.ReflTransGen.mono (fun _ _ => Change.quiet) _ _ steps
    exact (changes.authInv logged fun _ member => member).1
  · have changes : Changes (authRules e.log) e (e.exec call) :=
      exec_changes (fun plain => plain) allow
    exact (changes.authInv inv fun _ member => member).1

theorem AuthInv_new {config : Config} {auth : AuthMode} {rng entropy : SeededRng} :
    (Engine.new config auth rng entropy).AuthInv := by
  constructor <;> simp [Engine.new, Engine.rxRecords]

/-- What `poll_app_data` hands out is in the history. -/
theorem pollAppData_delivered {bufLen : Nat} :
    Post (pollAppData bufLen) e
      (fun result e' => ∀ data, result = some data → .delivered data ∈ e'.log)
      (fun _ _ => True) := by
  unfold pollAppData
  rw [post_bind, post_get, post_ite]
  refine ⟨fun _ => by simp, fun _ => ?_⟩
  split
  · simp
  · rw [post_ite]
    refine ⟨fun _ => trivial, fun _ => ?_⟩
    rw [post_bind]
    refine (assertNoHandshakes_readOnly e).mono ?_ fun _ _ _ => trivial
    rintro _ _ rfl
    rw [post_bind, post_set]
    rintro _ ⟨⟩
    simp [Engine.logEvent]

/-- What `poll_output` hands out is in the history. -/
theorem pollOutput_delivered (e : Engine) (bufLen : Nat) (now : Instant) :
    Post (Engine.pollOutput bufLen now) e
      (fun output e' => ∀ data, output = .applicationData data → .delivered data ∈ e'.log)
      (fun _ _ => True) := by
  unfold Engine.pollOutput
  rw [post_bind, post_modify, post_bind]
  refine pollAppData_delivered.mono (fun result e₁ delivered => ?_) fun _ _ _ => trivial
  cases result with
  | some data =>
      rintro _ ⟨⟩
      exact delivered data rfl
  | none =>
      -- The other outputs are no application data.
      rw [post_bind]
      refine Post.mono (Q := fun _ _ => True) (E := fun _ _ => True) ?_ (fun packet e₂ _ => ?_)
        fun _ _ _ => trivial
      · unfold Post
        split <;> trivial
      · cases packet with
        | some packet => simp
        | none =>
            rw [post_bind, post_get, post_ite]
            refine ⟨fun _ => ?_, fun _ => by simp⟩
            rw [post_bind, post_set]
            simp

end Invariant

/-- In every run whose calls meet the condition, what `poll_output` hands out as
application data is what came out of a received record when it was opened. -/
theorem data_authentic (config : Config) (auth : AuthMode) (rng entropy : SeededRng)
    (calls : List Call)
    (meets : Meets Engine.exec AuthCondition (Engine.new config auth rng entropy) calls)
    (bufLen : Nat) (now : Instant) (data : Bytes) (e' : Engine)
    (polled : Engine.pollOutput bufLen now
      (run Engine.exec (Engine.new config auth rng entropy) calls) =
        .ok (.applicationData data) e') : AuthenticData e'.log data := by
  have inv : (run Engine.exec (Engine.new config auth rng entropy) calls).AuthInv :=
    run_invariant (fun e call inv condition => exec_authInv inv condition) AuthInv_new meets
  have reached : (run Engine.exec (Engine.new config auth rng entropy) calls).exec
      (.pollOutput bufLen now) = e' := by
    simp [Engine.exec, finalState, Call.program, bind, EStateM.bind, polled, pure, EStateM.pure]
  have after : e'.AuthInv := reached ▸ exec_authInv inv trivial
  have delivered := pollOutput_delivered
    (run Engine.exec (Engine.new config auth rng entropy) calls) bufLen now
  rw [Post, polled] at delivered
  exact after.delivered data (delivered data rfl)

/-- What came out of the records that were opened. -/
def openedPlaintexts (log : List Event) : List Bytes :=
  log.filterMap fun event =>
    match event with
    | .opened _ _ _ plaintext => some plaintext
    | _ => none

theorem AuthenticData.mem {log : List Event} {data : Bytes} (authentic : AuthenticData log data) :
    data ∈ openedPlaintexts log := by
  obtain ⟨sequence, record, event, _⟩ := authentic
  exact List.mem_filterMap.mpr ⟨_, event, rfl⟩

/-- The key derivation of a session with a one byte key and empty randoms. -/
def sampleKeys (suite : Dtls12CipherSuite) : ContextM Unit := do
  modify (CryptoContext.setPsk [7])
  CryptoContext.computePskPreMasterSecret
  CryptoContext.deriveExtendedMasterSecret Sample.provider [] suite.hashAlgorithm
  CryptoContext.deriveKeys Sample.provider suite [] []

/-- An engine of the sample provider after some calls. -/
def sampleRun (calls : List Call) : Engine :=
  run Engine.exec (Engine.new Sample.config .psk (Sample.rng 0) (Sample.rng 9)) calls

/-- The calls that give an engine its keys. -/
def keyedCalls (isClient : Bool) : List Call :=
  [.setClient isClient, .setCipherSuite .ecdheEcdsaAes128GcmSha256,
   .context (finalState (sampleKeys .ecdheEcdsaAes128GcmSha256))]

/-- What a server with the same secrets sends: the text "hi". -/
def protectedDatagram : Bytes :=
  (sampleRun (keyedCalls false ++ [.createRecord .applicationData 1 false [104, 105]])).queueTx.headD []

/-- A client that gets the datagram after its handshake. -/
def protectedCalls : List Call :=
  keyedCalls true ++
    [.enablePeerEncryption, .releaseApplicationData, .receivePacket protectedDatagram]

theorem data_authentic_protected :
    ∃ e', Engine.pollOutput 2000 0 (sampleRun protectedCalls) =
        .ok (.applicationData [104, 105]) e' ∧ AuthenticData e'.log [104, 105] :=
  have polled := ok_of_value (by decide +kernel)
  ⟨_, polled, data_authentic Sample.config .psk (Sample.rng 0) (Sample.rng 9) protectedCalls
    (by decide) 2000 0 _ _ polled⟩

/-- An application data record of epoch 2 with the text "hello", which nobody
protected. -/
def unprotectedDatagram : Bytes :=
  [23, 254, 253, 0, 2, 0, 0, 0, 0, 0, 0, 0, 5, 104, 101, 108, 108, 111]

/-- The datagram comes before the keys, then the handshake completes. -/
def unprotectedCalls : List Call :=
  .receivePacket unprotectedDatagram :: keyedCalls true ++
    [.enablePeerEncryption, .releaseApplicationData]

theorem not_data_authentic :
    ∃ e', Engine.pollOutput 2000 0 (sampleRun unprotectedCalls) =
        .ok (.applicationData [104, 101, 108, 108, 111]) e' ∧
      ¬AuthenticData e'.log [104, 101, 108, 108, 111] := by
  refine ⟨_, rfl, fun authentic => ?_⟩
  have none : openedPlaintexts ((sampleRun unprotectedCalls).exec (.pollOutput 2000 0)).log = [] := by
    decide
  have member : _ ∈ openedPlaintexts ((sampleRun unprotectedCalls).exec (.pollOutput 2000 0)).log :=
    authentic.mem
  rw [none] at member
  cases member

end Dimpl.Dtls12
