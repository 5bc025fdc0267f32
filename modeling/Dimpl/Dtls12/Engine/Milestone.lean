import Dimpl.Deadline
import Dimpl.Dtls12.Engine.Phase

/-!
# How far an engine is

The keys are derived, a record was protected, the peer's encryption is on,
application data is released: what an endpoint has reached stays so for the rest
of the connection.
-/

namespace Dimpl.Dtls12

open Nom Program

/-- What an endpoint has reached in a state. -/
structure Milestones where
  keyed : Bool
  sealed : Bool
  enabled : Bool
  released : Bool
  deriving DecidableEq

/-- Both sides have an IV, of one length. -/
def CryptoContext.Keyed (c : CryptoContext) : Prop :=
  ∃ clientIv serverIv, c.clientWriteIv = some clientIv ∧ c.serverWriteIv = some serverIv ∧
    clientIv.length = serverIv.length

/-- The engine has reached the milestones. -/
structure Engine.Reached (e : Engine) (m : Milestones) : Prop where
  keyed : m.keyed = true → e.cryptoContext.Keyed
  sealed : m.sealed = true → sealings e.log ≠ []
  enabled : m.enabled = true → e.peerEncryptionEnabled = true
  released : m.released = true → e.releaseAppData = true

section Reached

variable {phase : Phase} {calm : Prop} {e e' : Engine} {m : Milestones}

theorem sealings_ne_nil {log log' : List Event} (some_ : sealings log ≠ [])
    (more : ∀ event ∈ log, event ∈ log') : sealings log' ≠ [] := by
  obtain ⟨item, member⟩ := List.exists_mem_of_ne_nil _ some_
  obtain ⟨event, inLog, isItem⟩ := List.mem_filterMap.mp member
  exact List.ne_nil_of_mem (List.mem_filterMap.mpr ⟨event, more event inLog, isItem⟩)

/-- What was reached stays, when keys do not change any more. -/
theorem Engine.Reached.of_endures (reached : e.Reached m) (endures : Endures phase calm e e')
    (late : m.keyed = true → phase = .sealing) : e'.Reached m where
  keyed := fun isKeyed => by
    have session := endures.session (late isKeyed)
    simp only [Engine.session, Prod.mk.injEq] at session
    rw [session.1]
    exact reached.keyed isKeyed
  sealed := fun isSealed => sealings_ne_nil (reached.sealed isSealed) endures.log
  enabled := fun isEnabled => endures.enabled (reached.enabled isEnabled)
  released := fun isReleased => endures.released (reached.released isReleased)

/-- Nothing is asked for in the first states. -/
theorem Engine.Reached.none : e.Reached ⟨false, false, false, false⟩ := by
  constructor <;> exact fun impossible => by cases impossible

end Reached

section Reaching

variable {e : Engine}

theorem Engine.armTimers_connect {now : Instant} :
    (e.armTimers now).connectTimeout =
      e.connectTimeout.arm e.config.handshakeTimeout (some now) := by
  unfold Engine.armTimers Timeout.arm
  cases e.connectTimeout <;> rfl

theorem ivNew_post {c : CryptoContext} {bytes : Bytes} :
    Post (ivNew bytes) c (fun iv c' => iv = bytes ∧ c' = c) (fun _ _ => True) := by
  unfold ivNew
  rw [post_ite]
  exact ⟨fun _ => ⟨rfl, rfl⟩, fun _ => trivial⟩

/-- Keys that were derived come with both IVs. -/
theorem deriveKeys_keyed {c : CryptoContext} {provider : CryptoProvider} {suite : Dtls12CipherSuite}
    {clientRandom serverRandom : Bytes} :
    Post (CryptoContext.deriveKeys provider suite clientRandom serverRandom) c
      (fun _ c' => c'.Keyed) (fun _ _ => True) := by
  unfold CryptoContext.deriveKeys
  rw [post_bind, post_get, post_bind, post_orThrow]
  refine ⟨fun masterSecret _ => ?_, fun _ => trivial⟩
  rw [post_bind, post_set, post_bind, post_orThrow]
  refine ⟨fun supported _ => ?_, fun _ => trivial⟩
  dsimp only
  rw [post_bind, post_liftCrypto]
  refine ⟨fun keyBlock _ => ?_, fun _ _ => trivial⟩
  rw [post_ite]
  refine ⟨fun _ => trivial, fun long => ?_⟩
  rw [post_bind, post_modify, post_bind]
  refine ivNew_post.mono ?_ fun _ _ _ => trivial
  rintro clientIv _ ⟨rfl, rfl⟩
  rw [post_bind, post_modify, post_bind]
  refine ivNew_post.mono ?_ fun _ _ _ => trivial
  rintro serverIv _ ⟨rfl, rfl⟩
  rw [post_bind, post_modify, post_bind, post_liftCrypto]
  refine ⟨fun clientCipher _ => ?_, fun _ _ => trivial⟩
  rw [post_bind, post_modify, post_bind, post_liftCrypto]
  refine ⟨fun serverCipher _ => ?_, fun _ _ => trivial⟩
  refine ⟨_, _, rfl, rfl, ?_⟩
  simp only [List.length_take, List.length_drop]
  omega

theorem deriveSessionKeys_keyed {suite : Dtls12CipherSuite} {sessionHash : Bytes}
    {clientRandom serverRandom : Random} :
    Post (deriveSessionKeys suite sessionHash clientRandom serverRandom) e
      (fun _ e' => e'.cryptoContext.Keyed) (fun _ _ => True) := by
  unfold deriveSessionKeys withContext
  rw [post_bind, post_get, post_bind, post_zoom]
  refine (post_self).mono (fun _ _ _ => ?_) fun _ _ _ => trivial
  rw [post_zoom]
  exact deriveKeys_keyed

/-- A protected record that was created is in the history. -/
theorem createRecordInner_sealed {contentType : ContentType} {epoch : Nat}
    {saveFragment forceNewDatagram : Bool} {fragment : Bytes} (isProtected : epoch ≠ 0) :
    Post (createRecordInner contentType epoch saveFragment forceNewDatagram fragment) e
      (fun _ e' => sealings e'.log ≠ []) (fun _ _ => True) := by
  unfold createRecordInner
  rw [post_bind, post_get, post_ite]
  refine ⟨fun _ => trivial, fun _ => ?_⟩
  rw [post_bind]
  refine post_self.mono (fun _ _ _ => ?_) fun _ _ _ => trivial
  rw [post_bind]
  refine post_self.mono (fun _ _ _ => ?_) fun _ _ _ => trivial
  rw [post_ite]
  refine ⟨fun isPlain => absurd isPlain isProtected, fun _ => ?_⟩
  rw [post_bind]
  refine post_self.mono (fun _ _ _ => ?_) fun _ _ _ => trivial
  rw [post_modify, sealings_logEvent]
  simp [sealings]

/-- What only adds to the history keeps its protected records. -/
theorem sealed_of_quiet {α : Type} {program : EngineM α}
    (quiet : Along (Quiet (fun _ => True) False) program) (isSealed : sealings e.log ≠ []) :
    Post program e (fun _ e' => sealings e'.log ≠ []) (fun _ _ => True) :=
  (quiet e).mono (fun _ _ moved => sealings_ne_nil isSealed (moved False.elim).1.grows.log)
    fun _ _ _ => trivial

/-- A protected message that was created is in the history. -/
theorem createHandshake_sealed {type : MessageType} {writeBody : EngineM Bytes}
    (isProtected : type.epoch ≠ 0) :
    Post (createHandshake type writeBody) e (fun _ e' => sealings e'.log ≠ []) (fun _ _ => True) := by
  unfold createHandshake
  rw [post_bind]
  refine post_self.mono (fun body e₁ _ => ?_) fun _ _ _ => trivial
  rw [post_bind, post_get]
  dsimp only
  rw [post_bind, post_set, post_bind]
  refine post_self.mono (fun overhead e₂ _ => ?_) fun _ _ _ => trivial
  have rounds : fragmentRounds e₁ body = (fragmentRounds e₁ body - 1) + 1 := by
    unfold fragmentRounds
    omega
  rw [rounds]
  unfold createFragments
  have first : (decide (0 < body.length) || decide (body.length = 0) && decide (0 = 0)) = true := by
    rcases Nat.eq_zero_or_pos body.length with empty | positive
    · simp [empty]
    · simp [positive]
  rw [if_pos first, post_bind, post_get]
  dsimp only
  rw [post_bind]
  refine (createRecordInner_sealed isProtected).mono (fun _ e₃ isSealed => ?_) fun _ _ _ => trivial
  -- The rounds behind the first only add to the history.
  exact sealed_of_quiet (along_runIf fun _ => createFragments_quiet False.elim) isSealed

theorem enablePeerEncryption_enabled :
    Post enablePeerEncryption e (fun _ e' => e'.peerEncryptionEnabled = true) (fun _ _ => True) := by
  unfold enablePeerEncryption
  rw [post_bind, post_get]
  dsimp only
  rw [post_bind, post_set]
  have quiet : ∀ buffers, Along (Quiet (fun _ => True) False) (reparse buffers) :=
    fun buffers => reparse_quiet fun _ _ _ _ => trivial
  refine (quiet _ _).mono (fun _ e' moved => ?_) fun _ _ _ => trivial
  exact (moved False.elim).1.grows.enabled

/-- The fragment reassembly starts with is the one the scan started with. -/
theorem unhandledFragments_head {first : Fragment} (found : e.scanFragments.head? = some first) :
    (e.unhandledFragments.map Prod.fst).head? = some first := by
  have fragments : e.unhandledFragments.map Prod.fst =
      ((e.rxRecords.dropWhile Record.isHandled).flatMap Record.handshakes).dropWhile
        Fragment.handled := by
    unfold Engine.unhandledFragments
    rw [← Function.comp_def Fragment.handled Prod.fst, ← List.dropWhile_map, List.map_flatMap]
    simp [Function.comp_def]
  unfold Engine.scanFragments at found
  rw [fragments]
  rw [← List.take_append_drop maxDefragmentPackets (e.rxRecords.dropWhile Record.isHandled),
    List.flatMap_append, List.dropWhile_append]
  split
  · rename_i empty
    simp [List.isEmpty_iff.mp empty] at found
  · rw [List.head?_append, found]
    rfl

/-- A complete message is of the wanted type. -/
theorem hasCompleteHandshake_type {wanted : MessageType} {first : Fragment × Bytes}
    {rest : List (Fragment × Bytes)} (complete : e.hasCompleteHandshake wanted = true)
    (queued : e.unhandledFragments = first :: rest) : first.1.header.msgType = wanted := by
  unfold Engine.hasCompleteHandshake at complete
  rw [Option.any_eq_true] at complete
  obtain ⟨head, found, isWanted⟩ := complete
  have same := unhandledFragments_head found
  rw [queued] at same
  cases same
  simp only [Bool.and_eq_true, decide_eq_true_eq] at isWanted
  exact isWanted.1.2

/-- A message as it stands in the transcript: in one fragment. -/
def transcriptMessage (type : MessageType) (messageSeq : Nat) (body : Bytes) : Bytes :=
  { msgType := type, length := body.length, messageSeq, fragmentOffset := 0,
    fragmentLength := body.length : Header }.serializeFragment body

/-- The bytes of a message put together from fragments. -/
def assembledBytes (fragments : List (Fragment × Bytes)) : Bytes :=
  fragments.flatMap fun item => slice item.2 item.1.range

/-- A message of the peer was put together. -/
def Heard (log : List Event) (type : MessageType) (body : Bytes) : Prop :=
  ∃ fragments, .assembled type fragments ∈ log ∧ assembledBytes fragments = body

theorem Heard.mono {log log' : List Event} {type : MessageType} {body : Bytes}
    (heard : Heard log type body) (more : ∀ event ∈ log, event ∈ log') : Heard log' type body := by
  obtain ⟨fragments, assembled, bytes⟩ := heard
  exact ⟨fragments, more _ assembled, bytes⟩

/-- What is known of a message that was read. -/
structure Read (wanted : MessageType) (e e' : Engine) (body : Body) (buffer : Bytes) : Prop where
  transcript : ∃ messageSeq,
    e'.transcript = e.transcript ++ transcriptMessage wanted messageSeq buffer
  heard : Heard e'.log wanted buffer
  parsed : ∃ rest, Nom.parse (Body.parse 0 wanted e.cipherSuite) buffer = .ok (body, rest)

/-- What a message that was not accepted leaves behind: nothing, or itself at the end
of the transcript. -/
def Missed (wanted : MessageType) (e e' : Engine) : Prop :=
  e'.transcript = e.transcript ∨
    ∃ messageSeq buffer, e'.transcript = e.transcript ++ transcriptMessage wanted messageSeq buffer

/-- A message that is returned was put together from fragments of the queue, stands in
the transcript and is what its body says. -/
theorem nextHandshake_read {wanted : MessageType} :
    Post (nextHandshake wanted) e
      (fun found e' => (found = none ∧ e' = e) ∨
        ∃ handshake buffer, found = some (handshake, buffer) ∧ Read wanted e e' handshake.body buffer)
      (fun _ e' => Missed wanted e e') := by
  unfold nextHandshake
  rw [post_bind, post_get, post_ite]
  refine ⟨fun complete => ?_, fun _ => .inl ⟨rfl, rfl⟩⟩
  split
  · exact .inl rfl
  · rename_i first rest queued
    have type := hasCompleteHandshake_type complete queued
    unfold defragment
    rw [post_bind, post_bind, post_get]
    dsimp only
    rw [post_bind, post_set, post_ite]
    refine ⟨fun _ => .inl rfl, fun whole => ?_⟩
    rw [post_bind, post_modify]
    -- The message is in the transcript before its body is looked at.
    have told : ∀ (e : Engine) fragments,
        ((e.logEvent (.assembled first.1.header.msgType fragments)).addToTranscript
          ({ first.1.header with
            fragmentOffset := 0
            fragmentLength := first.1.header.length }.serializeFragment
              ((takenFragments (first :: rest)).flatMap fun (item : Fragment × Bytes) =>
                slice item.2 item.1.range))).transcript =
          e.transcript ++ transcriptMessage wanted first.1.header.messageSeq
            ((takenFragments (first :: rest)).flatMap fun item => slice item.2 item.1.range) := by
      intro e fragments
      rw [transcriptMessage, ← type, not_not.mp whole]
      rfl
    split
    · exact .inr ⟨_, _, told _ _⟩
    · rename_i body left parsed
      rw [post_ite]
      refine ⟨fun _ => .inr ⟨_, _, told _ _⟩, fun _ => ?_⟩
      rw [post_pure, post_bind, post_modify, post_pure]
      refine .inr ⟨_, _, rfl, ⟨_, told _ _⟩, ⟨takenFragments (first :: rest), ?_, rfl⟩, left, ?_⟩
      · rw [← type]
        exact List.mem_append_right _ List.mem_cons_self
      · rw [← type]
        exact parsed

end Reaching

end Dimpl.Dtls12
