import Dimpl.Dtls13.Answer
import Dimpl.Dtls13.Conduct
import Dimpl.Dtls13.Engine.Metered

/-!
# When the send keys are changed

An engine marks that its send keys have sealed as many records as they may. The mark stands as
long as it is true, unless `await_application_data` takes it without sending a KeyUpdate.
-/

namespace Dimpl.Dtls13

open Nom Program

section Counters

variable {R : Engine → Engine → Prop} [Std.Refl R] [IsTrans Engine R]

/-- The functions of the engine that count records. -/
theorem Metered.serves (metered : Metered R) (rotated : Along R updateSendKeys) : Serves R where
  nextHandshake := metered.keeps nextHandshakeWithOptions_unread Engine.meter fun _ => rfl
  advance := fun _ => metered.same rfl
  sendData := createCiphertextRecord_metered metered
  sendAck := sendAck_metered metered
  createKeyUpdate := createKeyUpdate_metered metered rotated
  updateRecvKeys := metered.keeps updateRecvKeys_unequipped Engine.meter fun _ => rfl
  flightBegin := fun _ => metered.same rfl
  flightStop := fun _ => metered.same rfl
  createHandshake := createHandshake_metered metered
  truncate := fun _ _ => metered.same rfl
  setCipherSuite := fun _ _ => metered.same rfl
  replaceTranscript := replaceTranscriptWithMessageHash_along fun _ _ => metered.same rfl
  resetForHelloRetry := fun _ => metered.same rfl
  enablePeerEncryption := enablePeerEncryption_metered metered
  installHandshakeKeys := installHandshakeKeys_metered metered
  deriveApplicationSecrets := deriveApplicationSecrets_along fun _ _ => metered.same rfl
  installApplicationKeys := metered.keeps installApplicationKeys_unequipped Engine.meter fun _ => rfl
  release := fun _ => metered.same rfl
  receivePacket := receivePacket_metered metered
  pollOutput := pollOutput_metered metered
  sendAlert := createCiphertextRecord_metered metered
  cancelFlights := fun _ => metered.same rfl
  abort := fun _ => metered.same rfl

end Counters

section Marks

/-- The mark stands from the record on that reaches the threshold. -/
structure Engine.Marks (e : Engine) : Prop where
  limit : 1 ≤ e.config.aeadEncryptionLimit
  marked : e.aeadEncryptionThreshold ≤ e.appSendRecordCount → e.needsKeyUpdate = true

/-- The mark goes on standing. -/
def Upkeep (e e' : Engine) : Prop := e.Marks → e'.Marks

instance : Std.Refl Upkeep := ⟨fun _ => id⟩

instance : IsTrans Engine Upkeep := ⟨fun _ _ _ first second marks => second (first marks)⟩

theorem jitteredAeadThreshold_pos {limit : Nat} {rng : SeededRng} (positive : 1 ≤ limit) :
    1 ≤ (jitteredAeadThreshold limit rng).1 := by
  unfold jitteredAeadThreshold
  dsimp only
  split
  · exact positive
  · show 1 ≤ limit - limit / 4 + _
    omega

/-- Every record of the current keys that reaches the threshold sets the mark. -/
theorem upkeep_metered : Metered Upkeep where
  same := by
    intro e e' same marks
    have ⟨config, count, threshold, flag⟩ : e'.config = e.config ∧
        e'.appSendRecordCount = e.appSendRecordCount ∧
        e'.aeadEncryptionThreshold = e.aeadEncryptionThreshold ∧
        e'.needsKeyUpdate = e.needsKeyUpdate :=
      ⟨congrArg Meter.config same, congrArg Meter.appSendRecordCount same,
        congrArg Meter.aeadEncryptionThreshold same, congrArg Meter.needsKeyUpdate same⟩
    refine ⟨config ▸ marks.limit, ?_⟩
    rw [count, threshold, flag]
    exact marks.marked
  plaintext := fun e marks => ⟨marks.limit, marks.marked⟩
  counted := by
    intro e epoch slot marks
    cases slot with
    | handshake => exact ⟨marks.limit, marks.marked⟩
    | previous => exact ⟨marks.limit, marks.marked⟩
    | current =>
        refine ⟨marks.limit, fun reached => ?_⟩
        unfold Engine.bumpSlot at reached ⊢
        dsimp only at reached ⊢
        by_cases application : epoch ≥ 3
        · rw [if_pos application] at reached
          simp [application, reached]
        · rw [if_neg application] at reached
          simp [marks.marked reached]

theorem Engine.new_marks {config : Config} {certificate : DtlsCertificate} {rng : SeededRng}
    (limit : 1 ≤ config.aeadEncryptionLimit) : (Engine.new config certificate rng).Marks := by
  refine ⟨limit, fun reached => ?_⟩
  have positive := @jitteredAeadThreshold_pos _ (ExponentialBackoff.new config.flightStartRto
    config.flightRetries rng).2 limit
  exact absurd reached (Nat.not_le_of_lt positive)

/-- The mark is not taken. -/
def Stands (e e' : Engine) : Prop := e.needsKeyUpdate = true → e'.needsKeyUpdate = true

instance : Std.Refl Stands := ⟨fun _ => id⟩

instance : IsTrans Engine Stands := ⟨fun _ _ _ first second marked => second (first marked)⟩

theorem stands_metered : Metered Stands where
  same := fun same marked => (congrArg Meter.needsKeyUpdate same).trans marked
  plaintext := fun _ => id
  counted := by
    intro e epoch slot marked
    cases slot with
    | handshake => exact marked
    | previous => exact marked
    | current => simp [Engine.bumpSlot, marked]

end Marks

section Rotation

/-- A KeyUpdate is in flight. -/
def Engine.Rotating (e : Engine) : Prop := e.isKeyUpdateInFlight = true

/-- A KeyUpdate that is in flight goes on being so. -/
def StaysRotating (e e' : Engine) : Prop := e.Rotating → e'.Rotating

instance : Std.Refl StaysRotating := ⟨fun _ => id⟩

instance : IsTrans Engine StaysRotating := ⟨fun _ _ _ first second before => second (first before)⟩

theorem StaysRotating.of_same {e e' : Engine} (same : e'.prevAppSendKeys = e.prevAppSendKeys) :
    StaysRotating e e' := by
  unfold StaysRotating Engine.Rotating Engine.isKeyUpdateInFlight
  rw [same]
  exact id

/-- A program that leaves the previous send keys alone. -/
theorem staysRotating_of_keeps {τ α : Type} {view : Engine → τ} {program : EngineM α}
    (keeps : Along (Keeps view) program) (f : τ → Option EpochKeys)
    (told : ∀ e, f (view e) = e.prevAppSendKeys) : Along StaysRotating program :=
  (keeps.through f told).mono fun _ _ same => .of_same same

/-- New send keys have sealed nothing, and the old ones wait for the acknowledgement. -/
theorem updateSendKeys_post {e : Engine} :
    Post updateSendKeys e
      (fun _ e' => e'.Rotating ∧ (1 ≤ e.config.aeadEncryptionLimit → e'.Marks))
      (fun _ e' => e'.prevAppSendKeys = e.prevAppSendKeys ∧ e'.meter = e.meter) := by
  unfold updateSendKeys
  rw [post_bind, post_get, post_bind, post_orThrow]
  refine ⟨fun keys _ => ?_, fun _ => ⟨rfl, rfl⟩⟩
  rw [post_bind, post_modify, post_bind]
  refine (deriveNextTrafficSecret_readOnly _).mono ?_ fun _ _ same => same ▸ ⟨rfl, rfl⟩
  rintro secret _ rfl
  rw [post_bind]
  refine deriveEpochKeys_post.mono ?_ fun _ _ same => same ▸ ⟨rfl, rfl⟩
  rintro new _ ⟨_, rfl⟩
  rw [post_modify]
  refine ⟨rfl, fun limit => ⟨limit, fun reached => ?_⟩⟩
  have positive : 1 ≤ (jitteredAeadThreshold e.config.aeadEncryptionLimit e.rng).1 :=
    jitteredAeadThreshold_pos limit
  exact absurd reached (Nat.not_le_of_lt positive)

theorem updateSendKeys_upkeep : Along Upkeep updateSendKeys := fun _ =>
  updateSendKeys_post.mono (fun _ _ rotated marks => rotated.2 marks.limit)
    fun _ _ failed => upkeep_metered.same failed.2

theorem upkeep_serves : Serves Upkeep := upkeep_metered.serves updateSendKeys_upkeep

/-- A KeyUpdate that is sent is in flight, and whatever the mark was, the keys that follow have
sealed nothing. -/
theorem createKeyUpdate_post {request : KeyUpdateRequest} {e : Engine} :
    Post (createKeyUpdate request) e
      (fun _ e' => e'.Rotating ∧ (1 ≤ e.config.aeadEncryptionLimit → e'.Marks))
      (fun _ e' => StaysRotating e e') := by
  unfold createKeyUpdate
  rw [post_bind, post_modify, post_bind, post_get, post_bind, post_set, post_bind]
  refine (createCiphertextRecord_unspoken _).mono (fun _ e₁ same => ?_) fun _ e₁ same => ?_
  · have config : e₁.config = e.config := (congrArg Engine.config same : _)
    have previous : e₁.prevAppSendKeys = e.prevAppSendKeys := (congrArg Engine.prevAppSendKeys same : _)
    refine updateSendKeys_post.mono (fun _ _ rotated => ?_) fun _ _ failed => ?_
    · exact config ▸ rotated
    · exact .of_same (failed.1.trans previous)
  · exact .of_same (congrArg Engine.prevAppSendKeys same : _)

/-- What follows the KeyUpdate leaves it in flight. -/
theorem staysRotating_converses : Converses StaysRotating where
  nextHandshake := staysRotating_of_keeps nextHandshakeWithOptions_unread Engine.prevAppSendKeys fun _ => rfl
  advance := fun _ => .of_same rfl
  sendData := staysRotating_of_keeps createCiphertextRecord_unspoken Engine.prevAppSendKeys fun _ => rfl
  sendAck := staysRotating_of_keeps sendAck_unspoken Engine.prevAppSendKeys fun _ => rfl
  createKeyUpdate := fun _ => createKeyUpdate_post.mono (fun _ _ sent _ => sent.1) fun _ _ kept => kept
  updateRecvKeys := staysRotating_of_keeps updateRecvKeys_unequipped Engine.prevAppSendKeys fun _ => rfl

end Rotation

/-- The engine when the mark is taken. -/
def Engine.unmarked (e : Engine) : Engine := { e with needsKeyUpdate := false }

namespace Endpoint

variable {p : Endpoint}

/-- A run of `await_application_data` that finds the mark can send the KeyUpdate for it: none is in
flight, and `create_key_update` returns Ok. -/
def Rotates (p : Endpoint) : Prop :=
  p.engine.needsKeyUpdate = true →
    p.engine.isKeyUpdateInFlight = false ∧
      (value? (createKeyUpdate .updateRequested) p.engine.unmarked).isSome = true

/-- Taking the mark. -/
theorem initiateKeyUpdate_post {Q : Unit → Endpoint → Prop} {E : Fault → Endpoint → Prop}
    (idle : (p.engine.needsKeyUpdate && !p.engine.isKeyUpdateInFlight) = false →
      Q () { p with engine := p.engine.unmarked })
    (sends : p.engine.needsKeyUpdate = true → p.engine.isKeyUpdateInFlight = false →
      Post (createKeyUpdate .updateRequested) p.engine.unmarked
        (fun value e => Q value { p with engine := e }) (fun fault e => E fault { p with engine := e })) :
    Post initiateKeyUpdate p Q E := by
  unfold initiateKeyUpdate withEngine needsKeyUpdate
  rw [post_bind, post_zoom, post_bind, post_get, post_bind, post_set, post_pure, post_bind, post_get,
    post_zoom, post_runIf]
  refine ⟨fun both => ?_, idle⟩
  obtain ⟨marked, free⟩ := Bool.and_eq_true_iff.mp both
  exact sends marked ((Bool.not_eq_true' _).mp free)

/-- The mark is taken for a KeyUpdate only. -/
theorem initiateKeyUpdate_marks (marks : p.engine.Marks) (rotates : p.Rotates) :
    Post initiateKeyUpdate p (fun _ p' => p'.engine.Marks) (fun _ p' => p'.engine.Marks) := by
  refine initiateKeyUpdate_post (fun idle => ⟨marks.limit, fun reached => ?_⟩) fun marked free => ?_
  · -- The threshold is not reached, for the mark would stand and the KeyUpdate could be sent.
    have marked := marks.marked reached
    simp [marked, (rotates marked).1] at idle
  · have sent := @createKeyUpdate_post .updateRequested p.engine.unmarked
    have succeeds := (rotates marked).2
    unfold value? at succeeds
    unfold Post at sent ⊢
    split at succeeds
    · rename_i e outcome
      rw [outcome] at sent
      exact sent.2 marks.limit
    · cases succeeds

/-- The handler of an established connection that does not lose the mark. -/
theorem awaitApplicationData_marks (marks : p.engine.Marks) (rotates : p.Rotates) :
    Post awaitApplicationData p (fun _ p' => p'.engine.Marks) (fun _ p' => p'.engine.Marks) := by
  unfold awaitApplicationData
  rw [post_bind]
  refine (initiateKeyUpdate_marks marks rotates).mono (fun _ p₁ kept => ?_) fun _ _ kept => kept
  have after := sendAndReceive_conduct upkeep_serves.toConverses p₁
  exact after.mono (fun _ _ upkeep => upkeep.2 kept) fun _ _ upkeep => upkeep.2 kept

/-- The handler of an established connection that finds the mark leaves a KeyUpdate in flight. -/
theorem awaitApplicationData_rotates (marked : p.engine.needsKeyUpdate = true) :
    Post awaitApplicationData p (fun _ p' => p'.engine.Rotating)
      (fun fault p' => fault.Inner ∨ p'.engine.Rotating) := by
  unfold awaitApplicationData
  rw [post_bind]
  have initiated : Post initiateKeyUpdate p (fun _ p' => p'.engine.Rotating) (fun fault _ => fault.Inner) := by
    refine initiateKeyUpdate_post (fun idle => ?_) fun _ _ => ?_
    · show p.engine.isKeyUpdateInFlight = true
      simpa [marked] using idle
    · have both := (@createKeyUpdate_post .updateRequested p.engine.unmarked).and
        (createKeyUpdate_inner _)
      exact both.mono (fun _ _ sent => sent.1.1) fun _ _ failed => failed.2
  refine initiated.mono (fun _ p₁ rotating => ?_) fun _ _ inner => .inl inner
  have after := sendAndReceive_conduct staysRotating_converses p₁
  exact after.mono (fun _ _ stays => stays.2 rotating) fun _ _ stays => .inr (stays.2 rotating)

end Endpoint

namespace Client

variable {c : Client}

/-- Every run of `await_application_data` in the rounds of `make_progress` that finds the mark can
send the KeyUpdate for it. -/
def RoundsRotate : (fuel : Nat) → Client → Prop
  | 0, _ => True
  | fuel + 1, c => (c.state = .awaitApplicationData → c.endpoint.Rotates) ∧
    Post c.state.makeProgress c
      (fun next c' => next ≠ c.state → RoundsRotate fuel { c' with state := next }) (fun _ _ => True)

/-- Every run of `await_application_data` in a call that finds the mark can send the KeyUpdate for
it. -/
def CallRotates (c : Client) : Call → Prop
  | .handlePacket packet =>
    Post (withEngine (receivePacket packet)) c (fun _ c' => c'.RoundsRotate 20) (fun _ _ => True)
  | .handleTimeout now =>
    Post (withEndpoint (Endpoint.handleTimeout now)) c (fun _ c' => c'.RoundsRotate 20) (fun _ _ => True)
  | _ => True

/-- The rounds of `make_progress` do not lose the mark. -/
theorem progressLoop_marks {fuel : Nat} (marks : c.engine.Marks) (rotates : c.RoundsRotate fuel) :
    Post (progressLoop fuel) c (fun _ c' => c'.engine.Marks) (fun _ c' => c'.engine.Marks) := by
  induction fuel generalizing c with
  | zero => exact marks
  | succ fuel inductionHypothesis =>
      have handled : Post c.state.makeProgress c (fun _ c' => c'.engine.Marks)
          (fun _ c' => c'.engine.Marks) := by
        by_cases connected : c.state = .awaitApplicationData
        · rw [connected]
          unfold State.makeProgress awaitApplicationData withEndpoint
          rw [post_bind, post_zoom]
          exact Endpoint.awaitApplicationData_marks marks (rotates.1 connected)
        · exact (handlers_other upkeep_serves.toHandles connected c).mono
            (fun _ _ upkeep => upkeep.2 marks) fun _ _ upkeep => upkeep.2 marks
      unfold progressLoop
      rw [post_bind, post_get, post_bind]
      refine (handled.and rotates.2).mono (fun next c₁ both => ?_) fun _ _ both => both.1
      rw [post_ite]
      refine ⟨fun _ => both.1, fun moves => ?_⟩
      rw [post_bind, post_modify]
      exact inductionHypothesis both.1 (both.2 moves)

/-- A call does not lose the mark. -/
theorem exec_marks {call : Call} (marks : c.engine.Marks) (rotates : c.CallRotates call) :
    (c.exec call).engine.Marks := by
  refine (post_state (P := fun c' : Client => c'.engine.Marks)).mp ?_
  cases call with
  | handlePacket packet =>
      show Post (publicResult do withEngine (receivePacket packet); makeProgress) c _ _
      rw [post_publicResult, post_bind]
      have received : Along (InvImage (Conducted Upkeep) Client.stamped) (withEngine (receivePacket packet)) :=
        withEngine_conduct upkeep_serves.receivePacket
      refine ((received c).and rotates).mono (fun _ c₁ both => ?_) fun fault _ both => ?_
      · refine (progressLoop_marks (both.1.2 marks) both.2).mono (fun _ _ kept => kept) fun fault _ kept => ?_
        cases fault <;> exact kept
      · cases fault <;> exact both.1.2 marks
  | handleTimeout now =>
      show Post (do withEndpoint (Endpoint.handleTimeout now); publicResult makeProgress) c _ _
      rw [post_bind]
      have timed : Along (InvImage Upkeep Client.engine) (withEndpoint (Endpoint.handleTimeout now)) := by
        refine along_zoom (Endpoint.handleTimeout_conduct (handleTimeout_metered upkeep_metered) ?_)
          fun _ _ moved => moved
        exact fun _ _ => upkeep_metered.same rfl
      refine ((timed c).and rotates).mono (fun _ c₁ both => ?_) fun _ _ both => both.1 marks
      rw [post_publicResult]
      refine (progressLoop_marks (both.1 marks) both.2).mono (fun _ _ kept => kept) fun fault _ kept => ?_
      cases fault <;> exact kept
  | pollOutput | sendApplicationData | close =>
      exact (idle_conduct upkeep_serves.toIdles rfl c).mono (fun _ _ upkeep => upkeep.2 marks)
        fun _ _ upkeep => upkeep.2 marks

/-- A timeout call that succeeds on an established connection sends the KeyUpdate that the mark asks
for, unless one is in flight. -/
theorem rotating_of_timeout {now : Instant} (connected : c.state = .awaitApplicationData)
    (marked : c.engine.needsKeyUpdate = true) (succeeds : (value? (handleTimeout now) c).isSome = true) :
    (c.exec (.handleTimeout now)).engine.isKeyUpdateInFlight = true := by
  have progress : ∀ c₁ : Client, c₁.state = .awaitApplicationData → c₁.engine.needsKeyUpdate = true →
      Post (publicResult makeProgress) c₁ (fun _ c' => c'.engine.Rotating) (fun _ _ => True) := by
    intro c₁ connected₁ marked₁
    rw [post_publicResult]
    unfold makeProgress progressLoop
    rw [post_bind, post_get, connected₁]
    unfold State.makeProgress awaitApplicationData withEndpoint
    rw [post_bind, post_bind, post_zoom]
    refine (Endpoint.awaitApplicationData_rotates marked₁).mono (fun _ p rotating => ?_)
      fun fault p failed => ?_
    · rw [post_pure, if_pos rfl]
      exact rotating
    · cases fault with
      | transient reason => exact failed.resolve_left id
      | fatal reason => trivial
      | panic site => trivial
  have timed : Post (handleTimeout now) c (fun _ c' => c'.engine.Rotating) (fun _ _ => True) := by
    unfold handleTimeout
    rw [post_bind]
    have stands : Along (InvImage Stands Client.engine) (withEndpoint (Endpoint.handleTimeout now)) := by
      refine along_zoom (Endpoint.handleTimeout_conduct (handleTimeout_metered stands_metered) ?_)
        fun _ _ moved => moved
      exact fun _ _ => stands_metered.same rfl
    refine ((stands c).and (withEndpoint_keeps c)).mono (fun _ c₁ both => ?_) fun _ _ _ => trivial
    exact progress c₁ (both.2.trans connected) (both.1 marked)
  rcases timed.outcome with ⟨_, _, rotating⟩ | ⟨fails, _⟩
  · exact rotating
  · rw [fails] at succeeds
    cases succeeds

end Client

namespace Server

variable {s : Server}

/-- Every run of `await_application_data` in the rounds of `make_progress` that finds the mark can
send the KeyUpdate for it. -/
def RoundsRotate : (fuel : Nat) → Server → Prop
  | 0, _ => True
  | fuel + 1, s => (s.state = .awaitApplicationData → s.endpoint.Rotates) ∧
    Post s.state.makeProgress s
      (fun next s' => next ≠ s.state → RoundsRotate fuel { s' with state := next }) (fun _ _ => True)

/-- Every run of `await_application_data` in a call that finds the mark can send the KeyUpdate for
it. -/
def CallRotates (s : Server) : Call → Prop
  | .handlePacket packet =>
    Post (do retainHello packet; withEngine (receivePacket packet)) s (fun _ s' => s'.RoundsRotate 20)
      (fun _ _ => True)
  | .handleTimeout now =>
    Post (withEndpoint (Endpoint.handleTimeout now)) s (fun _ s' => s'.RoundsRotate 20) (fun _ _ => True)
  | _ => True

/-- The rounds of `make_progress` do not lose the mark. -/
theorem progressLoop_marks {fuel : Nat} (marks : s.engine.Marks) (rotates : s.RoundsRotate fuel) :
    Post (progressLoop fuel) s (fun _ s' => s'.engine.Marks) (fun _ s' => s'.engine.Marks) := by
  induction fuel generalizing s with
  | zero => exact marks
  | succ fuel inductionHypothesis =>
      have handled : Post s.state.makeProgress s (fun _ s' => s'.engine.Marks)
          (fun _ s' => s'.engine.Marks) := by
        by_cases connected : s.state = .awaitApplicationData
        · rw [connected]
          unfold State.makeProgress awaitApplicationData withEndpoint
          rw [post_bind, post_zoom]
          exact Endpoint.awaitApplicationData_marks marks (rotates.1 connected)
        · exact (handlers_other upkeep_serves.toHandles connected s).mono
            (fun _ _ upkeep => upkeep.2 marks) fun _ _ upkeep => upkeep.2 marks
      unfold progressLoop
      rw [post_bind, post_get, post_bind]
      refine (handled.and rotates.2).mono (fun next s₁ both => ?_) fun _ _ both => both.1
      rw [post_ite]
      refine ⟨fun _ => both.1, fun moves => ?_⟩
      rw [post_bind, post_modify]
      exact inductionHypothesis both.1 (both.2 moves)

/-- A call does not lose the mark. -/
theorem exec_marks {call : Call} (marks : s.engine.Marks) (rotates : s.CallRotates call) :
    (s.exec call).engine.Marks := by
  refine (post_state (P := fun s' : Server => s'.engine.Marks)).mp ?_
  cases call with
  | handlePacket packet =>
      show Post (handlePacket packet) s _ _
      have retained : Along (InvImage Upkeep Server.engine) (retainHello packet) := by
        refine along_get_bind fun s => ?_
        rw [post_ite, post_ite]
        exact ⟨fun _ => ⟨fun _ => id, fun _ => id⟩, fun _ => id⟩
      have received : Along (InvImage Upkeep Server.engine) (withEngine (receivePacket packet)) :=
        (withEngine_conduct upkeep_serves.receivePacket).mono fun _ _ moved => moved.2
      have rounds : Post (do retainHello packet; withEngine (receivePacket packet)) s
          (fun _ s' => s'.RoundsRotate 20) (fun _ _ => True) := rotates
      unfold handlePacket
      rw [post_bind] at rounds ⊢
      refine ((retained s).and rounds).mono (fun _ s₁ both => ?_) fun _ _ both => both.1 marks
      rw [post_publicResult, post_bind]
      refine ((received s₁).and both.2).mono (fun _ s₂ more => ?_) fun fault _ more => ?_
      · rw [post_bind]
        have made := progressLoop_marks (more.1 (both.1 marks)) more.2
        refine made.mono (fun _ s₃ kept => ?_) fun fault _ kept => by cases fault <;> exact kept
        rw [post_modify]
        unfold commitVersion
        split <;> exact kept
      · cases fault <;> exact more.1 (both.1 marks)
  | handleTimeout now =>
      show Post (do withEndpoint (Endpoint.handleTimeout now); publicResult makeProgress) s _ _
      rw [post_bind]
      have timed : Along (InvImage Upkeep Server.engine) (withEndpoint (Endpoint.handleTimeout now)) := by
        refine along_zoom (Endpoint.handleTimeout_conduct (handleTimeout_metered upkeep_metered) ?_)
          fun _ _ moved => moved
        exact fun _ _ => upkeep_metered.same rfl
      refine ((timed s).and rotates).mono (fun _ s₁ both => ?_) fun _ _ both => both.1 marks
      rw [post_publicResult]
      refine (progressLoop_marks (both.1 marks) both.2).mono (fun _ _ kept => kept) fun fault _ kept => ?_
      cases fault <;> exact kept
  | pollOutput | sendApplicationData | close =>
      exact (idle_conduct upkeep_serves.toIdles rfl s).mono (fun _ _ upkeep => upkeep.2 marks)
        fun _ _ upkeep => upkeep.2 marks

/-- A timeout call that succeeds on an established connection sends the KeyUpdate that the mark asks
for, unless one is in flight. -/
theorem rotating_of_timeout {now : Instant} (connected : s.state = .awaitApplicationData)
    (marked : s.engine.needsKeyUpdate = true) (succeeds : (value? (handleTimeout now) s).isSome = true) :
    (s.exec (.handleTimeout now)).engine.isKeyUpdateInFlight = true := by
  have progress : ∀ s₁ : Server, s₁.state = .awaitApplicationData → s₁.engine.needsKeyUpdate = true →
      Post (publicResult makeProgress) s₁ (fun _ s' => s'.engine.Rotating) (fun _ _ => True) := by
    intro s₁ connected₁ marked₁
    rw [post_publicResult]
    unfold makeProgress progressLoop
    rw [post_bind, post_get, connected₁]
    unfold State.makeProgress awaitApplicationData withEndpoint
    rw [post_bind, post_bind, post_zoom]
    refine (Endpoint.awaitApplicationData_rotates marked₁).mono (fun _ p rotating => ?_)
      fun fault p failed => ?_
    · rw [post_pure, if_pos rfl]
      exact rotating
    · cases fault with
      | transient reason => exact failed.resolve_left id
      | fatal reason => trivial
      | panic site => trivial
  have timed : Post (handleTimeout now) s (fun _ s' => s'.engine.Rotating) (fun _ _ => True) := by
    unfold handleTimeout
    rw [post_bind]
    have stands : Along (InvImage Stands Server.engine) (withEndpoint (Endpoint.handleTimeout now)) := by
      refine along_zoom (Endpoint.handleTimeout_conduct (handleTimeout_metered stands_metered) ?_)
        fun _ _ moved => moved
      exact fun _ _ => stands_metered.same rfl
    refine ((stands s).and (withEndpoint_state s)).mono (fun _ s₁ both => ?_) fun _ _ _ => trivial
    exact progress s₁ (both.2.trans connected) (both.1 marked)
  rcases timed.outcome with ⟨_, _, rotating⟩ | ⟨fails, _⟩
  · exact rotating
  · rw [fails] at succeeds
    cases succeeds

end Server

end Dimpl.Dtls13
