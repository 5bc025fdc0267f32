import Dimpl.Dtls12.Engine.Consume

/-!
# Runs of an engine

Enabling, releasing and a change of keys are changes of their own beside the
steps. A run makes the calls of a client or a server, in any order and with any
arguments, and every call is a sequence of changes.
-/

namespace Dimpl.Dtls12

open Nom Program

/-- What is assumed of the calls that are made. -/
structure Rules where
  /-- The record slices that are parsed. -/
  slices : Bytes → Prop
  /-- Whether nothing is protected. -/
  plain : Prop
  /-- When the peer's encryption may be enabled. -/
  mayEnable : Engine → Prop
  /-- When application data may be released. -/
  mayRelease : Engine → Prop
  /-- When secrets and keys may change. -/
  mayRekey : Engine → Prop
  /-- When suite and role may change and the transcript start again. -/
  maySelect : Engine → Prop
  /-- When the connect timer may be armed or stopped. -/
  mayTime : Engine → Prop

/-- One change of the core by any engine function. -/
inductive Change (rules : Rules) (e : Engine) : Engine → Prop where
  | quiet {e' : Engine} (step : Step rules.slices rules.plain e e') : Change rules e e'
  /-- A datagram comes from the network. -/
  | received {datagram : Bytes} : Change rules e (e.logEvent (.received datagram))
  | enabled (allowed : rules.mayEnable e) :
      Change rules e { e with
        peerEncryptionEnabled := true
        queueRx := e.queueRx.takeWhile fun item => !hasEpoch1 item }
  | released (allowed : rules.mayRelease e) : Change rules e e.releaseApplicationData
  | rekeyed {cryptoContext : CryptoContext} (allowed : rules.mayRekey e) :
      Change rules e { e with cryptoContext }
  | selected {explicitNonceLen minProtectedFragmentLen : Nat}
      {cipherSuite : Option Dtls12CipherSuite} {isClient : Bool} (allowed : rules.maySelect e)
      (lengths : e.explicitNonceLen ≤ e.minProtectedFragmentLen →
        explicitNonceLen ≤ minProtectedFragmentLen) :
      Change rules e { e with explicitNonceLen, minProtectedFragmentLen, cipherSuite, isClient }
  /-- The transcript is started again. -/
  | retold (allowed : rules.maySelect e) : Change rules e { e with transcript := [] }
  | timed {connectTimeout : Timeout} (allowed : rules.mayTime e) :
      Change rules e { e with connectTimeout }

/-- Any number of changes. -/
abbrev Changes (rules : Rules) : Engine → Engine → Prop := Relation.ReflTransGen (Change rules)

/-- Changes that keep the flight unprotected, when nothing is protected. -/
def Moves (rules : Rules) (e e' : Engine) : Prop :=
  (rules.plain → e.FlightPlain) → Changes rules e e' ∧ (rules.plain → e'.FlightPlain)

section Moves

variable {rules : Rules} {e e' : Engine}

instance : Std.Refl (Moves rules) := ⟨fun _ plain => ⟨.refl, plain⟩⟩

theorem Moves.refl : Moves rules e e := Std.Refl.refl e

instance : IsTrans Engine (Moves rules) :=
  ⟨fun _ _ _ first second plain =>
    have ⟨changes, middle⟩ := first plain
    have ⟨more, last⟩ := second middle
    ⟨changes.trans more, last⟩⟩

/-- Quiet steps are changes. -/
theorem Quiet.moves (quiet : Quiet rules.slices rules.plain e e') : Moves rules e e' := by
  intro plain
  obtain ⟨steps, last⟩ := quiet plain
  exact ⟨Relation.ReflTransGen.mono (fun _ _ => Change.quiet) _ _ steps, last⟩

theorem moves_of_quiet {α : Type} {x : EngineM α}
    (quiet : Along (Quiet rules.slices rules.plain) x) : Along (Moves rules) x :=
  quiet.mono fun _ _ => Quiet.moves

/-- A change that leaves the flight alone. -/
theorem Change.moves (change : Change rules e e')
    (flight : e'.flightSavedRecords = e.flightSavedRecords) : Moves rules e e' :=
  fun plain => ⟨.single change, fun k entry member => plain k entry (flight ▸ member)⟩

/-- A state change outside the core that at most empties the flight. -/
theorem Moves.of_core (same : e'.core = e.core)
    (flight : e'.flightSavedRecords ⊆ e.flightSavedRecords) : Moves rules e e' :=
  (Quiet.of_same same flight).moves

/-- The connect timer changes, and nothing else in the core. -/
theorem Moves.of_timed {t : Timeout} (allowed : rules.mayTime e)
    (same : e'.core = ({ e with connectTimeout := t } : Engine).core)
    (flight : e'.flightSavedRecords ⊆ e.flightSavedRecords) : Moves rules e e' := by
  have timed : Moves rules e { e with connectTimeout := t } := Change.moves (.timed allowed) rfl
  exact IsTrans.trans _ _ _ timed (Moves.of_core same flight)

/-- A timeout call arms the connect timer first. -/
theorem handleTimeout_moves {now : Instant} (allowed : rules.mayTime e) :
    Post (Engine.handleTimeout now) e (fun _ e' => Moves rules e e') (fun _ e' => Moves rules e e') := by
  have armed : Moves rules e (e.armTimers now) := Moves.of_timed allowed rfl (List.Subset.refl _)
  exact handleTimeout_armed.mono (fun _ _ quiet => IsTrans.trans _ _ _ armed quiet.moves)
    fun _ _ quiet => IsTrans.trans _ _ _ armed quiet.moves

theorem receivePacket_moves {datagram : Bytes}
    (slices : ∀ slice ∈ recordSlices datagram, rules.slices slice) :
    Along (Moves rules) (receivePacket datagram) := by
  apply along_bind
  · exact along_modify fun e => Change.moves .received rfl
  · exact fun _ => moves_of_quiet (parsePacket_quiet slices)

/-- Enabling encryption parses the early records again. -/
theorem enablePeerEncryption_moves (allowed : rules.mayEnable e)
    (slices : ∀ r ∈ e.rxRecords, ∀ slice ∈ recordSlices r.buffer, rules.slices slice) :
    Post enablePeerEncryption e (fun _ e' => Moves rules e e') (fun _ e' => Moves rules e e') := by
  unfold enablePeerEncryption
  rw [post_bind, post_get]
  dsimp only
  rw [post_bind, post_set]
  refine Along.after (moves_of_quiet (reparse_quiet fun buffer member => ?_))
    (Change.moves (.enabled allowed) rfl)
  obtain ⟨r, inQueue, rfl⟩ := List.mem_map.mp member
  obtain ⟨item, inSuffix, inItem⟩ := List.mem_flatMap.mp (List.mem_of_mem_filter inQueue)
  exact slices r (List.mem_flatMap.mpr ⟨item, (List.dropWhile_suffix _).subset inSuffix, inItem⟩)

theorem setCipherSuite_moves {suite : Dtls12CipherSuite} (allowed : rules.maySelect e) :
    Post (setCipherSuite suite) e (fun _ e' => Moves rules e e') (fun _ e' => Moves rules e e') := by
  unfold setCipherSuite
  rw [post_bind, post_get, post_bind, post_orThrow]
  constructor
  · intro supported _
    exact Change.moves (.selected allowed fun _ => Nat.le_add_right _ _) rfl
  · exact fun _ => Moves.refl

/-- A program over the cryptographic context changes nothing else. -/
theorem withContext_moves {α : Type} {program : ContextM α} (allowed : ∀ e, rules.mayRekey e) :
    Along (Moves rules) (withContext program) := by
  intro e
  unfold withContext
  rw [post_zoom, post_state]
  exact Change.moves (.rekeyed (allowed e)) rfl

theorem randomArr_moves {count : Nat} : Along (Moves rules) (randomArr count) := by
  refine along_get_bind fun e => ?_
  rw [post_bind, post_set]
  exact Moves.of_core rfl (List.Subset.refl _)

theorem resetServerForHelloVerifyRequest_moves (allowed : rules.maySelect e) :
    Moves rules e e.resetServerForHelloVerifyRequest := by
  have retold : Moves rules e { e with transcript := [] } := Change.moves (.retold allowed) rfl
  have emptied : Quiet rules.slices rules.plain { e with transcript := [] }
      { e with transcript := [], queueRx := [] } :=
    Quiet.of_subset (List.nil_subset _)
  have cleared : Quiet rules.slices rules.plain { e with transcript := [], queueRx := [] }
      e.resetServerForHelloVerifyRequest :=
    Quiet.of_same rfl (List.Subset.refl _)
  exact IsTrans.trans _ _ _ retold (emptied.trans cleared).moves

end Moves

/-- A call on the engine. -/
inductive Call where
  | receivePacket (datagram : Bytes)
  | setClient (isClient : Bool)
  | setCipherSuite (suite : Dtls12CipherSuite)
  | nextHandshake (wanted : MessageType)
  /-- `next_record` for a ChangeCipherSpec, the only type it is asked for. -/
  | nextChangeCipherSpec
  | dropPendingCcs
  | createHandshake (type : MessageType) (body : Bytes)
  | createRecord (contentType : ContentType) (epoch : Nat) (saveFragment : Bool) (fragment : Bytes)
  | flightBegin
  | flightStopResendTimers
  | enablePeerEncryption
  | releaseApplicationData
  | discardPendingWrites
  | abort
  | resetServerForHelloVerifyRequest
  | resetClientForHelloVerifyRequest
  | setNextHandshakeSeqNo (nextHandshakeSeqNo : Nat)
  | advanceEpoch0Sequence
  | addToTranscript (bytes : Bytes)
  /-- The endpoint draws from the generator. -/
  | random (count : Nat)
  /-- The endpoint works on the cryptographic context, with this effect. -/
  | context (change : CryptoContext → CryptoContext)
  | handleTimeout (now : Instant)
  | pollOutput (bufLen : Nat) (now : Instant)

/-- The program of a call; what it returns does not matter to the engine. -/
def Call.program : Call → EngineM Unit
  | .receivePacket datagram => Dtls12.receivePacket datagram
  | .setClient isClient => modify (Engine.setClient isClient)
  | .setCipherSuite suite => Dtls12.setCipherSuite suite
  | .nextHandshake wanted => do
    let _ ← Dtls12.nextHandshake wanted
  | .nextChangeCipherSpec => do
    let _ ← nextRecord .changeCipherSpec
  | .dropPendingCcs => Dtls12.dropPendingCcs
  | .createHandshake type body => Dtls12.createHandshake type (pure body)
  | .createRecord contentType epoch saveFragment fragment =>
    Dtls12.createRecord contentType epoch saveFragment fragment
  | .flightBegin => modify Engine.flightBegin
  | .flightStopResendTimers => modify Engine.flightStopResendTimers
  | .enablePeerEncryption => Dtls12.enablePeerEncryption
  | .releaseApplicationData => modify Engine.releaseApplicationData
  | .discardPendingWrites => modify Engine.discardPendingWrites
  | .abort => modify Engine.abort
  | .resetServerForHelloVerifyRequest => modify Engine.resetServerForHelloVerifyRequest
  | .resetClientForHelloVerifyRequest => modify Engine.resetClientForHelloVerifyRequest
  | .setNextHandshakeSeqNo number => modify (Engine.setNextHandshakeSeqNo number)
  | .advanceEpoch0Sequence => modify Engine.advanceEpoch0Sequence
  | .addToTranscript bytes => modify (Engine.addToTranscript bytes)
  | .random count => do
    let _ ← randomArr count
  | .context change => modify fun (e : Engine) => { e with cryptoContext := change e.cryptoContext }
  | .handleTimeout now => Engine.handleTimeout now
  | .pollOutput bufLen now => do
    let _ ← Engine.pollOutput bufLen now

namespace Engine

/-- The state after a call, whether it succeeded or not. -/
def exec (e : Engine) (call : Call) : Engine := finalState call.program e

end Engine

/-- What the rules ask of a call made in a state. -/
def Rules.Allow (rules : Rules) (e : Engine) : Call → Prop
  | .receivePacket datagram => ∀ slice ∈ recordSlices datagram, rules.slices slice
  | .enablePeerEncryption =>
    rules.mayEnable e ∧ ∀ r ∈ e.rxRecords, ∀ slice ∈ recordSlices r.buffer, rules.slices slice
  | .releaseApplicationData => rules.mayRelease e
  | .setClient _ | .setCipherSuite _ | .resetServerForHelloVerifyRequest
  | .resetClientForHelloVerifyRequest => rules.maySelect e
  | .context _ => rules.mayRekey e
  | .handleTimeout _ | .flightStopResendTimers | .abort => rules.mayTime e
  | _ => True

section Exec

variable {rules : Rules} {e : Engine}

/-- Every call is a sequence of changes. -/
theorem exec_changes {call : Call} (free : ¬rules.plain) (allow : rules.Allow e call) :
    Changes rules e (e.exec call) := by
  have free' : ∀ {p : Prop}, rules.plain → p := fun plain => absurd plain free
  have same : ∀ {e' : Engine}, e'.core = e.core →
      e'.flightSavedRecords = e.flightSavedRecords ∨ e'.flightSavedRecords = [] →
      Moves rules e e' := by
    intro e' core flight
    apply Moves.of_core core
    rcases flight with kept | emptied
    · exact kept ▸ List.Subset.refl _
    · exact emptied ▸ List.nil_subset _
  have moves : Post call.program e (fun _ e' => Moves rules e e') (fun _ e' => Moves rules e e') := by
    cases call with
    | receivePacket datagram => exact receivePacket_moves allow e
    | setClient isClient => exact Change.moves (.selected allow id) rfl
    | setCipherSuite suite => exact setCipherSuite_moves allow
    | nextHandshake wanted =>
        exact moves_of_quiet (along_bind nextHandshake_quiet fun _ => along_pure) e
    | nextChangeCipherSpec =>
        exact moves_of_quiet (along_bind nextRecord_quiet fun _ => along_pure) e
    | dropPendingCcs => exact moves_of_quiet dropPendingCcs_quiet e
    | createHandshake type body =>
        exact moves_of_quiet (createHandshake_quiet along_pure free') e
    | createRecord contentType epoch saveFragment fragment =>
        exact moves_of_quiet (createRecordInner_quiet free') e
    | enablePeerEncryption => exact enablePeerEncryption_moves allow.1 allow.2
    | releaseApplicationData => exact Change.moves (.released allow) rfl
    | resetServerForHelloVerifyRequest => exact resetServerForHelloVerifyRequest_moves allow
    | resetClientForHelloVerifyRequest => exact Change.moves (.retold allow) rfl
    | addToTranscript bytes => exact Change.moves (.quiet .told) rfl
    | random count => exact along_bind randomArr_moves (fun _ => along_pure) e
    | context change => exact Change.moves (.rekeyed allow) rfl
    | handleTimeout now => exact handleTimeout_moves allow
    | pollOutput bufLen now =>
        exact moves_of_quiet (along_bind pollOutput_quiet fun _ => along_pure) e
    | flightBegin => exact same rfl (.inr rfl)
    | abort =>
        exact Moves.of_timed (t := .disabled) allow rfl (List.nil_subset _)
    | flightStopResendTimers =>
        exact Moves.of_timed (t := .disabled) allow rfl (List.Subset.refl _)
    | discardPendingWrites | setNextHandshakeSeqNo _ | advanceEpoch0Sequence =>
        exact same rfl (.inl rfl)
  exact (post_state.mp moves free').1

end Exec

end Dimpl.Dtls12
