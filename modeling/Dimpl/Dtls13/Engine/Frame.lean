import Dimpl.Dtls13.Engine.Change

/-!
# What engine functions leave alone

The settings, the negotiated suite, the handshake deadline, the release of
application data and the number of the next message are changed by few functions.
All others keep them, add to the transcript at its end only and forget nothing of
the history.
-/

namespace Dimpl.Dtls13

open Nom Program

/-- The fields that sending, receiving and key changes leave alone. -/
structure Fixed where
  config : Config
  certificate : DtlsCertificate
  isClient : Bool
  cipherSuite : Option Dtls13CipherSuite
  connectTimeout : Timeout
  releaseAppData : Bool
  peerHandshakeSeqNo : Nat

/-- The fixed fields of an engine. -/
def Engine.fixed (e : Engine) : Fixed :=
  { config := e.config, certificate := e.certificate, isClient := e.isClient
    cipherSuite := e.cipherSuite, connectTimeout := e.connectTimeout
    releaseAppData := e.releaseAppData, peerHandshakeSeqNo := e.peerHandshakeSeqNo }

/-- The type of a message that was put together. -/
def Event.assembledType : Event → Option MessageType
  | .assembled type _ => some type
  | _ => none

/-- The types of the messages that were put together, in their order. -/
def Engine.readTypes (e : Engine) : List MessageType := e.log.filterMap Event.assembledType

/-- The fixed fields are the same, transcript and history have only grown. Messages
are read and written only where `busy` holds. -/
structure Frame (busy : Prop) (e e' : Engine) : Prop where
  fixed : e'.fixed = e.fixed
  transcript : e.transcript <+: e'.transcript
  log : e.log <+: e'.log
  still : ¬busy → e'.transcript = e.transcript ∧ e'.readTypes = e.readTypes

namespace Frame

variable {busy : Prop} {e e' : Engine}

theorem config (frame : Frame busy e e') : e'.config = e.config := congrArg Fixed.config frame.fixed

theorem cipherSuite (frame : Frame busy e e') : e'.cipherSuite = e.cipherSuite :=
  congrArg Fixed.cipherSuite frame.fixed

theorem connectTimeout (frame : Frame busy e e') : e'.connectTimeout = e.connectTimeout :=
  congrArg Fixed.connectTimeout frame.fixed

theorem releaseAppData (frame : Frame busy e e') : e'.releaseAppData = e.releaseAppData :=
  congrArg Fixed.releaseAppData frame.fixed

theorem refl (e : Engine) : Frame busy e e :=
  ⟨rfl, List.prefix_rfl, List.prefix_rfl, fun _ => ⟨rfl, rfl⟩⟩

instance : Std.Refl (Frame busy) := ⟨refl⟩

instance : IsTrans Engine (Frame busy) :=
  ⟨fun _ _ _ first second =>
    { fixed := second.fixed.trans first.fixed
      transcript := first.transcript.trans second.transcript
      log := first.log.trans second.log
      still := fun idle =>
        ⟨(second.still idle).1.trans (first.still idle).1,
          (second.still idle).2.trans (first.still idle).2⟩ }⟩

/-- Nothing that is framed has changed. -/
theorem of_same (fixed : e'.fixed = e.fixed) (transcript : e'.transcript = e.transcript)
    (log : e'.log = e.log) : Frame busy e e' :=
  ⟨fixed, by rw [transcript], by rw [log], fun _ => ⟨transcript, by rw [Engine.readTypes, log]; rfl⟩⟩

/-- Writing down an event, other than that a message was put together. -/
theorem logEvent (e : Engine) {event : Event} (other : event.assembledType = none) :
    Frame busy e (e.logEvent event) := by
  refine ⟨rfl, List.prefix_rfl, List.prefix_append _ _, fun _ => ⟨rfl, ?_⟩⟩
  simp [Engine.readTypes, Engine.logEvent, other]

/-- Adding an own message to the transcript. -/
theorem addToTranscript (e : Engine) (bytes : Bytes) : Frame True e (e.addToTranscript bytes) :=
  ⟨rfl, List.prefix_append _ _, List.prefix_rfl, fun idle => absurd trivial idle⟩

/-- A message was put together. -/
theorem assembled (e : Engine) (type : MessageType) (fragments : List (Fragment × Bytes)) :
    Frame True e (e.logEvent (.assembled type fragments)) :=
  ⟨rfl, List.prefix_rfl, List.prefix_append _ _, fun idle => absurd trivial idle⟩

end Frame

section Sending

variable {busy : Prop} {e : Engine}

theorem saveEntry_frame {entry : Entry} : Along (Frame busy) (saveEntry entry) := by
  intro e
  refine saveEntry_post.mono ?_ ?_
  · rintro _ _ rfl
    exact .of_same rfl rfl rfl
  · rintro _ _ rfl
    exact .refl _

theorem Engine.enqueueRecord_frame {append : Bool} {bytes : Bytes} :
    Frame busy e (e.enqueueRecord append bytes) := by
  unfold Engine.enqueueRecord
  split <;> exact .of_same rfl rfl rfl

theorem Engine.bumpSlot_framed {epoch : Nat} {slot : SendSlot} :
    Frame busy e (e.bumpSlot epoch slot) := by
  cases slot <;> exact .of_same rfl rfl rfl

theorem createPlaintextRecord_frame {contentType : ContentType} {saveFragment : Bool}
    {fragment : Bytes} : Along (Frame busy) (createPlaintextRecord contentType saveFragment fragment) := by
  refine along_bind along_get fun e => ?_
  refine along_bind (along_runIf fun _ => saveEntry_frame) fun _ => ?_
  refine along_bind checkQueueTx_readOnly.along fun _ => ?_
  refine along_ite (fun _ => along_throw) fun _ => along_modify fun e₁ => ?_
  exact IsTrans.trans _ _ _ Engine.enqueueRecord_frame (.of_same rfl rfl rfl)

theorem createCiphertextRecord_frame {contentType : ContentType} {epoch : Nat}
    {saveFragment : Bool} {fragment : Bytes} :
    Along (Frame busy) (createCiphertextRecord contentType epoch saveFragment fragment) := by
  refine along_bind along_get fun e => ?_
  refine along_bind (along_runIf fun _ => saveEntry_frame) fun _ => ?_
  refine along_bind suiteProvider_readOnly.along fun _ => ?_
  refine along_bind along_orThrow fun _ => ?_
  refine along_bind along_liftCrypto fun _ => ?_
  refine along_bind checkQueueTx_readOnly.along fun _ => ?_
  refine along_ite (fun _ => along_throw) fun _ => along_modify fun e₁ => ?_
  have bumped : Frame busy e₁ (e₁.bumpSlot epoch (e.sendSlot epoch)) := Engine.bumpSlot_framed
  exact IsTrans.trans _ _ _ (IsTrans.trans _ _ _ bumped Engine.enqueueRecord_frame)
    (.logEvent _ rfl)

theorem createRecord_frame {contentType : ContentType} {epoch : Nat} {saveFragment : Bool}
    {fragment : Bytes} : Along (Frame busy) (createRecord contentType epoch saveFragment fragment) :=
  along_ite (fun _ => createPlaintextRecord_frame) fun _ => createCiphertextRecord_frame

theorem resendEntry_frame {entry : Entry} : Along (Frame busy) (resendEntry entry) := by
  refine along_bind along_get fun e => along_ite (fun _ => along_pure) fun _ => ?_
  exact along_bind createRecord_frame fun _ => along_pure

theorem resendEntries_frame {entries : List Entry} : Along (Frame busy) (resendEntries entries) := by
  induction entries with
  | nil => exact along_pure
  | cons entry rest inductionHypothesis =>
      refine along_bind resendEntry_frame fun _ => ?_
      exact along_bind inductionHypothesis fun _ => along_pure

theorem flightResend_frame : Along (Frame busy) flightResend := by
  refine along_get_bind fun e => ?_
  rw [post_bind, post_set]
  refine Along.after (s := e) (along_bind resendEntries_frame fun _ => along_modify fun _ => ?_)
    (.of_same rfl rfl rfl)
  exact .of_same rfl rfl rfl

theorem createFragments_frame {header : Header} {epoch fixedOverhead : Nat} {body : Bytes}
    {fuel offset : Nat} :
    Along (Frame busy) (createFragments header epoch fixedOverhead body fuel offset) := by
  induction fuel generalizing offset with
  | zero => exact along_throw
  | succ fuel inductionHypothesis =>
      refine along_ite (fun _ => along_bind along_get fun e => ?_) fun _ => along_pure
      exact along_bind createRecord_frame fun _ => along_runIf fun _ => inductionHypothesis

theorem createHandshake_frame {type : MessageType} {writeBody : EngineM Bytes}
    (write : Along (Frame True) writeBody) : Along (Frame True) (createHandshake type writeBody) := by
  refine along_bind write fun body => along_get_bind fun e => ?_
  rw [post_bind, post_set]
  refine Along.after (s := e) ?_ (IsTrans.trans _ _ _ (.addToTranscript e _) (.of_same rfl rfl rfl))
  refine along_ite (fun _ => createFragments_frame) fun _ => ?_
  exact along_bind suiteProvider_readOnly.along fun _ => createFragments_frame

theorem sendAck_frame : Along (Frame busy) sendAck := by
  refine along_get_bind fun e => ?_
  rw [post_ite]
  refine ⟨fun _ => along_pure e, fun _ => ?_⟩
  rw [post_bind, post_set]
  exact createCiphertextRecord_frame.after (.of_same rfl rfl rfl)

end Sending

section Keys

variable {busy : Prop}

theorem deriveEpochKeys_frame {epoch : Nat} {trafficSecret : Bytes} :
    Along (Frame busy) (deriveEpochKeys epoch trafficSecret) := by
  intro e
  refine deriveEpochKeys_post.mono ?_ ?_
  · rintro keys _ ⟨-, rfl⟩
    exact .of_same rfl rfl rfl
  · rintro _ _ rfl
    exact .refl _

theorem installHandshakeKeys_frame {clientTrafficSecret serverTrafficSecret : Bytes} :
    Along (Frame busy) (installHandshakeKeys clientTrafficSecret serverTrafficSecret) := by
  refine along_bind along_get fun e => ?_
  refine along_bind deriveEpochKeys_frame fun _ => ?_
  refine along_bind (along_modify fun _ => .of_same rfl rfl rfl) fun _ => ?_
  refine along_bind deriveEpochKeys_frame fun _ => ?_
  exact along_modify fun _ => .of_same rfl rfl rfl

theorem pushRecvEpoch_frame {epoch : Nat} {keys : EpochKeys} :
    Along (Frame busy) (pushRecvEpoch epoch keys) := by
  intro e
  refine pushRecvEpoch_post.mono ?_ ?_
  · rintro _ _ rfl
    exact .of_same rfl rfl rfl
  · rintro _ _ rfl
    exact .refl _

theorem installApplicationKeys_frame {clientTrafficSecret serverTrafficSecret : Bytes} :
    Along (Frame busy) (installApplicationKeys clientTrafficSecret serverTrafficSecret) := by
  refine along_bind along_get fun e => ?_
  refine along_bind deriveEpochKeys_frame fun _ => ?_
  refine along_bind (along_modify fun _ => .of_same rfl rfl rfl) fun _ => ?_
  refine along_bind deriveEpochKeys_frame fun _ => ?_
  refine along_bind pushRecvEpoch_frame fun _ => ?_
  exact along_modify fun _ => .of_same rfl rfl rfl

theorem updateSendKeys_frame : Along (Frame busy) updateSendKeys := by
  refine along_bind along_get fun e => ?_
  refine along_bind along_orThrow fun _ => ?_
  refine along_bind (along_modify fun _ => .of_same rfl rfl rfl) fun _ => ?_
  refine along_bind deriveNextTrafficSecret_readOnly.along fun _ => ?_
  refine along_bind deriveEpochKeys_frame fun _ => ?_
  exact along_modify fun _ => .of_same rfl rfl rfl

theorem updateRecvKeys_frame : Along (Frame busy) updateRecvKeys := by
  refine along_bind along_get fun e => ?_
  refine along_bind along_orThrow fun _ => ?_
  refine along_bind deriveNextTrafficSecret_readOnly.along fun _ => ?_
  refine along_bind deriveEpochKeys_frame fun _ => ?_
  refine along_bind (along_modify fun _ => .of_same rfl rfl rfl) fun _ => ?_
  exact pushRecvEpoch_frame

theorem createKeyUpdate_frame {request : KeyUpdateRequest} :
    Along (Frame busy) (createKeyUpdate request) := by
  refine along_bind (along_modify fun _ => .of_same rfl rfl rfl) fun _ => ?_
  refine along_get_bind fun e => ?_
  rw [post_bind, post_set]
  refine Along.after (s := e) ?_ (.of_same rfl rfl rfl)
  exact along_bind createCiphertextRecord_frame fun _ => updateSendKeys_frame

theorem deriveHandshakeSecrets_readOnly {sharedSecret : Bytes} :
    ReadOnly (deriveHandshakeSecrets sharedSecret) := by
  refine along_bind (along_bind zeros_readOnly fun _ => extract_readOnly) fun _ => ?_
  refine along_bind transcriptHashOf_readOnly fun _ => along_bind hashLen_readOnly fun _ => ?_
  refine along_bind expandLabel_readOnly fun _ => along_bind extract_readOnly fun _ => ?_
  refine along_bind transcriptHash_readOnly fun _ => along_bind hashLen_readOnly fun _ => ?_
  refine along_bind expandLabel_readOnly fun _ => along_bind hashLen_readOnly fun _ => ?_
  exact along_bind expandLabel_readOnly fun _ => along_pure

/-- Deriving the application secrets keeps the exporter secret and changes nothing else. -/
theorem deriveApplicationSecrets_along {R : Engine → Engine → Prop} [Std.Refl R] [IsTrans Engine R]
    (kept : ∀ (e : Engine) secret, R e { e with exporterMasterSecret := secret })
    {handshakeSecret : Bytes} : Along R (deriveApplicationSecrets handshakeSecret) := by
  refine along_bind transcriptHashOf_readOnly.along fun _ => ?_
  refine along_bind hashLen_readOnly.along fun _ => ?_
  refine along_bind expandLabel_readOnly.along fun _ => along_bind zeros_readOnly.along fun _ => ?_
  refine along_bind extract_readOnly.along fun _ => ?_
  refine along_bind transcriptHash_readOnly.along fun _ => ?_
  refine along_bind hashLen_readOnly.along fun _ => along_bind expandLabel_readOnly.along fun _ => ?_
  refine along_bind hashLen_readOnly.along fun _ => along_bind expandLabel_readOnly.along fun _ => ?_
  refine along_bind hashLen_readOnly.along fun _ => along_bind expandLabel_readOnly.along fun _ => ?_
  exact along_bind (along_modify fun e => kept e _) fun _ => along_pure

theorem deriveApplicationSecrets_frame {handshakeSecret : Bytes} :
    Along (Frame busy) (deriveApplicationSecrets handshakeSecret) :=
  deriveApplicationSecrets_along fun _ _ => .of_same rfl rfl rfl

/-- Replacing the first part of the transcript changes nothing else. -/
theorem replaceTranscriptWithMessageHash_along {R : Engine → Engine → Prop} [Std.Refl R]
    (replaced : ∀ (e : Engine) transcript, R e { e with transcript }) {splitAt : Nat} :
    Along R (replaceTranscriptWithMessageHash splitAt) := by
  refine along_get_bind fun e => ?_
  rw [post_bind]
  refine (transcriptHashOf_readOnly e).mono ?_ fun _ _ same => same ▸ Std.Refl.refl e
  rintro hash _ rfl
  exact replaced e _

theorem computeVerifyData_readOnly {trafficSecret : Bytes} :
    ReadOnly (computeVerifyData trafficSecret) := by
  refine along_bind hashLen_readOnly fun _ => along_bind expandLabel_readOnly fun _ => ?_
  exact along_bind transcriptHash_readOnly fun _ => extract_readOnly

theorem verifySignature_readOnly {certDer data signature : Bytes} {hash : HashAlgorithm}
    {algorithm : SignatureAlgorithm} :
    ReadOnly (verifySignature certDer data signature hash algorithm) :=
  along_bind along_get fun _ => along_liftCrypto

end Keys

section Receiving

variable {busy : Prop} {e : Engine}

theorem Engine.replayUpdate_frame {sequence : Sequence} : Frame busy e (e.replayUpdate sequence) := by
  unfold Engine.replayUpdate
  split <;> exact .of_same rfl rfl rfl

theorem Engine.processAck_frame {ackData : Bytes} : Frame busy e (e.processAck ackData) := by
  have marked : ∀ (e : Engine) acked, Frame busy e (e.markAcked acked) := fun _ _ => .of_same rfl rfl rfl
  have ended : ∀ e : Engine, Frame busy e e.endHandshakeFlight := by
    intro e
    simp only [Engine.endHandshakeFlight]
    split
    · exact .of_same rfl rfl rfl
    · exact .refl e
  have forgotten : ∀ e : Engine, Frame busy e e.endKeyUpdate := by
    intro e
    unfold Engine.endKeyUpdate
    split
    · exact .of_same rfl rfl rfl
    · exact .refl e
  unfold Engine.processAck
  split
  · exact .refl e
  · exact IsTrans.trans _ _ _ (IsTrans.trans _ _ _ (marked _ _) (ended _)) (forgotten _)

theorem classifyRecord_frame {r : Record} : Along (Frame busy) (classifyRecord r) := by
  refine along_get_bind fun e => ?_
  simp only [post_ite, post_pure]
  refine ⟨fun _ => .refl e, fun _ => ⟨fun _ => .refl e, fun _ => ⟨fun _ => ?_, fun _ => ?_⟩⟩⟩
  · rw [post_bind, post_set]
    exact Engine.processAck_frame
  · refine ⟨fun _ => ?_, fun _ => ⟨fun _ => .refl e, fun _ => .refl e⟩⟩
    cases r.fragment[1]? with
    | none => exact .refl e
    | some description =>
        simp only [post_ite, post_pure, post_throw]
        refine ⟨fun _ => ?_, fun _ => ⟨fun _ => .refl e, fun _ => .refl e⟩⟩
        rw [post_bind, post_set]
        exact .of_same rfl rfl rfl

theorem openRecord_frame {recordSlice : Bytes} {r : Record} :
    Along (Frame busy) (openRecord recordSlice r) := by
  refine along_get_bind fun e => ?_
  dsimp only
  rw [post_ite]
  refine ⟨fun _ => .refl e, fun _ => ?_⟩
  rw [post_bind]
  refine (suiteProvider_readOnly e).mono ?_ fun _ _ same => same ▸ .refl e
  rintro suite _ rfl
  rw [post_ite]
  refine ⟨fun _ => .refl e, fun _ => ?_⟩
  split
  · exact .refl e
  · rename_i key plaintext decrypted
    rw [post_bind, post_modify]
    have opened : Frame busy e ((e.replayUpdate (e.fullSequence (recordSlice.headD 0) r)).logEvent
        (.opened key (e.fullSequence (recordSlice.headD 0) r) recordSlice plaintext)) :=
      IsTrans.trans _ _ _ Engine.replayUpdate_frame (.logEvent _ rfl)
    split
    · exact opened
    · exact opened

theorem parseRecord_frame {recordSlice : Bytes} : Along (Frame busy) (parseRecord recordSlice) := by
  refine along_bind decryptSequenceNumber_readOnly.along fun buffer => ?_
  refine along_bind along_get fun e => ?_
  cases Record.ofBuffer buffer with
  | error err => exact along_pure
  | ok r => exact along_ite (fun _ => along_pure) fun _ => openRecord_frame

theorem parseRecordsLoop_frame {fuel : Nat} {packet : Bytes} {parsed : List Record} :
    Along (Frame busy) (parseRecordsLoop fuel packet parsed) := by
  induction fuel generalizing packet parsed with
  | zero => exact along_pure
  | succ fuel inductionHypothesis =>
      refine along_ite (fun _ => along_pure) fun _ => ?_
      cases recordEnd packet with
      | error reason => exact along_throw
      | ok stop =>
          cases stop with
          | none => exact along_pure
          | some stop =>
              refine along_ite (fun _ => along_throw) fun _ => ?_
              refine along_bind parseRecord_frame fun found => ?_
              cases found with
              | none => exact inductionHypothesis
              | some r => exact along_ite (fun _ => inductionHypothesis) fun _ => along_throw

theorem classifyRecords_frame {records : List Record} : Along (Frame busy) (classifyRecords records) := by
  induction records with
  | nil => exact along_pure
  | cons r rest inductionHypothesis =>
      refine along_bind classifyRecord_frame fun _ => ?_
      exact along_bind inductionHypothesis fun _ => along_pure

theorem insertIncomingHandshake_frame {incoming : Incoming} {handshake : Fragment} :
    Along (Frame busy) (insertIncomingHandshake incoming handshake) := by
  refine along_bind along_get fun e => ?_
  refine along_bind (along_runIf fun _ => flightResend_frame) fun _ => along_get_bind fun e => ?_
  dsimp only
  rw [post_ite, post_ite]
  refine ⟨fun _ => .refl e, fun _ => ⟨fun _ => .refl e, fun _ => ?_⟩⟩
  split
  · exact .of_same rfl rfl rfl
  · rw [post_ite]
    exact ⟨fun _ => .of_same rfl rfl rfl, fun _ => .refl e⟩

theorem insertIncoming_frame {incoming : Incoming} : Along (Frame busy) (insertIncoming incoming) := by
  refine along_bind along_get fun e => along_ite (fun _ => along_throw) fun _ => ?_
  cases incoming.first.firstHandshake with
  | some handshake => exact insertIncomingHandshake_frame
  | none =>
      refine along_get_bind fun e => ?_
      split
      · exact .of_same rfl rfl rfl
      · exact .refl e

theorem parsePacket_frame {packet : Bytes} : Along (Frame busy) (parsePacket packet) := by
  refine along_bind (along_bind parseRecordsLoop_frame fun _ => classifyRecords_frame) fun records => ?_
  cases Incoming.ofRecords records with
  | none => exact along_pure
  | some incoming => exact insertIncoming_frame

theorem receivePacket_frame {datagram : Bytes} : Along (Frame busy) (receivePacket datagram) :=
  along_bind (along_modify fun e => .logEvent e rfl) fun _ => parsePacket_frame

theorem reparse_frame {buffers : List Bytes} : Along (Frame busy) (reparse buffers) := by
  induction buffers with
  | nil => exact along_pure
  | cons buffer rest inductionHypothesis =>
      exact along_bind parsePacket_frame fun _ => inductionHypothesis

theorem enablePeerEncryption_frame : Along (Frame busy) enablePeerEncryption := by
  refine along_get_bind fun e => ?_
  dsimp only
  rw [post_bind, post_set]
  exact reparse_frame.after (.of_same rfl rfl rfl)

end Receiving

section Consuming

variable {busy : Prop} {e : Engine}

/-- Reading a message for the handshake adds it to the transcript. -/
theorem defragment_frame {first : Fragment × Bytes} {rest : List (Fragment × Bytes)}
    {withTranscript allowUnknownClientHelloSuites : Bool} :
    Along (Frame True) (defragment first rest withTranscript allowUnknownClientHelloSuites) := by
  refine along_get_bind fun e => ?_
  dsimp only
  rw [post_bind, post_set]
  refine Along.after (s := e) ?_ (.of_same rfl rfl rfl)
  refine along_ite (fun _ => along_throw) fun _ => ?_
  refine along_bind (along_modify fun e => .assembled e _ _) fun _ => ?_
  refine along_bind (along_runIf fun _ => along_modify fun e => .addToTranscript e _) fun _ => ?_
  split
  · exact along_throw
  · exact along_ite (fun _ => along_throw) fun _ => along_pure

theorem nextHandshakeWithOptions_frame {wanted : MessageType}
    {withTranscript allowUnknownClientHelloSuites : Bool} :
    Along (Frame True) (nextHandshakeWithOptions wanted withTranscript allowUnknownClientHelloSuites) := by
  refine along_bind along_get fun e => along_ite (fun _ => ?_) fun _ => along_pure
  split
  · exact along_throw
  · exact along_bind defragment_frame fun _ => along_pure

/-- The bytes of a message put together from fragments. -/
def assembledBytes : List (Fragment × Bytes) → Bytes
  | [] => []
  | first :: rest => slice first.2 first.1.range ++ assemble first.1.stop rest

/-- A message of the peer was put together. -/
def Heard (log : List Event) (type : MessageType) (body : Bytes) : Prop :=
  ∃ fragments, .assembled type fragments ∈ log ∧ assembledBytes fragments = body

theorem Heard.mono {log log' : List Event} {type : MessageType} {body : Bytes}
    (heard : Heard log type body) (grown : log <+: log') : Heard log' type body := by
  obtain ⟨fragments, assembled, bytes⟩ := heard
  exact ⟨fragments, grown.subset assembled, bytes⟩

/-- The fragment reassembly starts with is the one the scan started with. -/
theorem unhandledFragments_head {first : Fragment} (found : e.scanFragments.head? = some first) :
    (e.unhandledFragments.map Prod.fst).head? = some first := by
  have fragments : e.unhandledFragments.map Prod.fst =
      ((e.rxRecords.dropWhile Record.isHandled).flatMap Record.handshakes).dropWhile
        Fragment.handled := by
    unfold Engine.unhandledFragments
    rw [← Function.comp_def Fragment.handled Prod.fst, ← List.dropWhile_map, List.map_flatMap]
    simp [Function.comp_def]
  unfold Engine.scanFragments at found
  rw [fragments]
  rw [← List.take_append_drop maxDefragmentPackets (e.rxRecords.dropWhile Record.isHandled),
    List.flatMap_append, List.dropWhile_append]
  split
  · rename_i empty
    simp [List.isEmpty_iff.mp empty] at found
  · rw [List.head?_append, found]
    rfl

/-- A complete message is of the wanted type. -/
theorem hasCompleteHandshake_type {wanted : MessageType} {first : Fragment × Bytes}
    {rest : List (Fragment × Bytes)} (complete : e.hasCompleteHandshake wanted = true)
    (queued : e.unhandledFragments = first :: rest) : first.1.header.msgType = wanted := by
  unfold Engine.hasCompleteHandshake at complete
  rw [Option.any_eq_true] at complete
  obtain ⟨head, found, isWanted⟩ := complete
  have same := unhandledFragments_head found
  rw [queued] at same
  cases same
  simp only [Bool.and_eq_true, decide_eq_true_eq] at isWanted
  exact isWanted.1.2

/-- What is known of a message that was read with its transcript. -/
structure Read (wanted : MessageType) (allowUnknown : Bool) (e e' : Engine) (body : Body)
    (buffer : Bytes) : Prop where
  frame : Frame True e e'
  transcript : e'.transcript = e.transcript ++ transcriptMessage wanted buffer
  heard : Heard e'.log wanted buffer
  readTypes : e'.readTypes = e.readTypes ++ [wanted]
  parsed : ∃ rest,
    Nom.parse (Body.parseWithOptions 0 wanted e.cipherSuite allowUnknown) buffer = .ok (body, rest)

/-- What a message that was not accepted leaves behind: nothing, or itself at the end
of the transcript. -/
structure Missed (wanted : MessageType) (e e' : Engine) : Prop where
  frame : Frame True e e'
  trace : (e'.transcript = e.transcript ∧ e'.readTypes = e.readTypes) ∨
    ∃ buffer, e'.transcript = e.transcript ++ transcriptMessage wanted buffer ∧
      e'.readTypes = e.readTypes ++ [wanted]

/-- Reading a message of the handshake. -/
theorem nextHandshake_read {wanted : MessageType} {allowUnknown : Bool} :
    Post (nextHandshakeWithOptions wanted true allowUnknown) e
      (fun found e' => (found = none ∧ e' = e) ∨
        ∃ handshake buffer, found = some (handshake, buffer) ∧
          Read wanted allowUnknown e e' handshake.body buffer)
      (fun _ e' => Missed wanted e e') := by
  have result : Post (nextHandshakeWithOptions wanted true allowUnknown) e
      (fun found e' => (found = none ∧ e' = e) ∨
        ∃ handshake buffer, found = some (handshake, buffer) ∧
          (Frame True e e' → Read wanted allowUnknown e e' handshake.body buffer))
      (fun _ e' => Frame True e e' → Missed wanted e e') := by
    unfold nextHandshakeWithOptions
    rw [post_bind, post_get, post_ite]
    refine ⟨fun complete => ?_, fun _ => .inl ⟨rfl, rfl⟩⟩
    split
    · exact fun frame => ⟨frame, .inl ⟨rfl, rfl⟩⟩
    · rename_i first rest queued
      have type := hasCompleteHandshake_type complete queued
      unfold defragment
      rw [post_bind, post_bind, post_get]
      dsimp only
      rw [post_bind, post_set, post_ite]
      refine ⟨fun _ frame => ⟨frame, .inl ⟨rfl, rfl⟩⟩, fun _ => ?_⟩
      rw [post_bind, post_modify, post_bind, post_runIf]
      refine ⟨fun _ => ?_, fun never => by cases never⟩
      rw [post_modify]
      -- The message is in the transcript before its body is looked at.
      have readTypes : ∀ (e : Engine) fragments bytes,
          ((e.logEvent (.assembled first.1.header.msgType fragments)).addToTranscript bytes).readTypes =
            e.readTypes ++ [wanted] := by
        intro e fragments bytes
        simp [Engine.readTypes, Engine.addToTranscript, Engine.logEvent, Event.assembledType, type]
      split
      · exact fun frame => ⟨frame, .inr ⟨_, by rw [← type]; rfl, readTypes _ _ _⟩⟩
      · rename_i body left parsed
        rw [post_ite]
        refine ⟨fun _ frame => ⟨frame, .inr ⟨_, by rw [← type]; rfl, readTypes _ _ _⟩⟩, fun _ => ?_⟩
        rw [post_pure, post_pure]
        refine .inr ⟨_, _, rfl, fun frame => ⟨frame, ?_, ?_, readTypes _ _ _, left, ?_⟩⟩
        · simp only [Engine.addToTranscript, Engine.logEvent, type]
        · refine ⟨takenFragments (first :: rest), ?_, ?_⟩
          · rw [← type]
            exact List.mem_append_right _ List.mem_cons_self
          · rfl
        · rw [← type]
          exact parsed
  refine ((nextHandshakeWithOptions_frame e).and result).mono ?_ fun _ _ failed => failed.2 failed.1
  rintro found e' ⟨frame, none | ⟨handshake, buffer, some, read⟩⟩
  · exact .inl none
  · exact .inr ⟨handshake, buffer, some, read frame⟩

theorem Engine.maybeScheduleHandshakeAck_frame {now : Instant} :
    Frame busy e (e.maybeScheduleHandshakeAck now) := by
  simp only [Engine.maybeScheduleHandshakeAck]
  split
  · exact .of_same rfl rfl rfl
  · split
    · exact .refl e
    · split
      · exact .refl e
      · exact .of_same rfl rfl rfl

theorem maybeFlushHandshakeAck_frame {now : Instant} : Along (Frame busy) (maybeFlushHandshakeAck now) := by
  refine along_get_bind fun e => ?_
  split
  · exact .refl e
  · rw [post_ite]
    refine ⟨fun _ => .refl e, fun _ => ?_⟩
    rw [post_bind, post_set]
    refine (along_runIf fun _ => along_bind along_get fun e => ?_).after (.of_same rfl rfl rfl)
    exact along_runIf fun _ => createCiphertextRecord_frame

theorem retransmit_frame {now flightTimeout : Instant} :
    Along (Frame busy) (retransmit now flightTimeout) := by
  refine along_ite (fun _ => along_pure) fun _ => along_get_bind fun e => ?_
  rw [post_ite]
  refine ⟨fun _ => ?_, fun _ => .refl e⟩
  rw [post_bind, post_set]
  exact flightResend_frame.after (.of_same rfl rfl rfl)

/-- Apart from arming its timers a timeout call leaves the frame alone. -/
theorem handleTimeout_frame {now : Instant} :
    Post (Engine.handleTimeout now) e (fun _ e' => Frame busy (e.armTimers now) e')
      (fun _ e' => Frame busy (e.armTimers now) e') := by
  unfold Engine.handleTimeout
  rw [post_bind, post_modify, post_bind, post_get, post_ite]
  refine ⟨fun _ => .refl _, fun _ => ?_⟩
  split
  · refine along_bind retransmit_frame (fun _ => ?_) _
    refine along_bind (along_modify fun _ => Engine.maybeScheduleHandshakeAck_frame) fun _ => ?_
    exact maybeFlushHandshakeAck_frame
  · exact .refl _

theorem pollAppData_frame {bufLen : Nat} : Along (Frame busy) (pollAppData bufLen) := by
  refine along_get_bind fun e => ?_
  rw [post_ite]
  refine ⟨fun _ => .refl e, fun _ => ?_⟩
  split
  · exact .refl e
  · rename_i r queueRx taken
    simp only [post_ite]
    refine ⟨fun _ => .refl e, fun _ => ⟨fun _ => .refl e, fun _ => ?_⟩⟩
    rw [post_bind, post_set]
    have taken : Frame busy e { e with queueRx } := .of_same rfl rfl rfl
    exact IsTrans.trans _ _ _ taken (.logEvent _ rfl)

theorem pollPacketTx_frame {bufLen : Nat} : Along (Frame busy) (pollPacketTx bufLen) := by
  refine along_get_bind fun e => ?_
  split
  · exact .refl e
  · rw [post_bind, post_set, post_ite]
    exact ⟨fun _ => .of_same rfl rfl rfl, fun _ => .of_same rfl rfl rfl⟩

theorem pollOutput_frame {bufLen : Nat} {now : Instant} :
    Along (Frame busy) (Engine.pollOutput bufLen now) := by
  refine along_bind (along_modify fun _ => .of_same rfl rfl rfl) fun _ => ?_
  refine along_bind pollAppData_frame fun data => ?_
  cases data with
  | some data => exact along_pure
  | none =>
      refine along_bind (along_modify fun _ => Engine.maybeScheduleHandshakeAck_frame) fun _ => ?_
      refine along_bind pollPacketTx_frame fun packet => ?_
      cases packet with
      | some packet => exact along_pure
      | none =>
          refine along_get_bind fun e => ?_
          rw [post_ite]
          refine ⟨fun _ => ?_, fun _ => .refl e⟩
          rw [post_bind, post_set]
          exact .of_same rfl rfl rfl

end Consuming

end Dimpl.Dtls13
