import Dimpl.Dtls13.Conduct
import Dimpl.Dtls13.Engine.Outbox

/-!
# The lengths a provider promises

A suite appends a tag of a fixed length and HMAC-SHA256 has 32 bytes. The handshake keys
of an engine are those of a suite, so what they seal has the length that was counted on.
-/

namespace Dimpl

open Nom

/-- The lengths of what a provider computes: the tag of every DTLS 1.3 suite and the HMAC
that makes a cookie. -/
structure CryptoProvider.Sized (provider : CryptoProvider) (tagLen : Nat) : Prop where
  tag : ∀ suite ∈ provider.dtls13CipherSuites, suite.tagLen = tagLen
  appends : ∀ suite ∈ provider.dtls13CipherSuites, ∀ key cipher,
    suite.createCipher key = .ok cipher → cipher.Appends tagLen
  cookie : ∀ key data mac, provider.hmac .sha256 key data = .ok mac → mac.length = 32

namespace Dtls13

open Program

/-- The lengths of what an engine sends are those the provider promises, and it has at most
four receive epochs. -/
structure Engine.Sized (tagLen : Nat) (e : Engine) : Prop where
  provider : e.config.cryptoProvider.Sized tagLen
  seals : e.Seals tagLen
  epochs : e.appRecvKeys.length ≤ 4

/-- The settings stay, and so do the lengths. -/
def Sizes (tagLen : Nat) (e e' : Engine) : Prop :=
  e'.config = e.config ∧ (e.Sized tagLen → e'.Sized tagLen)

section Relation

variable {tagLen : Nat} {e e' : Engine}

instance : Std.Refl (Sizes tagLen) := ⟨fun _ => ⟨rfl, id⟩⟩

instance : IsTrans Engine (Sizes tagLen) :=
  ⟨fun _ _ _ first second =>
    ⟨second.1.trans first.1, fun sized => second.2 (first.2 sized)⟩⟩

theorem Sizes.refl (e : Engine) : Sizes tagLen e e := Std.Refl.refl e

/-- The negotiated suite has the tag the provider promises. -/
theorem Engine.Sized.suite (sized : e.Sized tagLen) {suite : SupportedDtls13CipherSuite}
    (isSuite : e.suiteProvider = some suite) : suite.tagLen = tagLen := by
  unfold Engine.suiteProvider at isSuite
  obtain ⟨name, _, found⟩ := Option.bind_eq_some_iff.mp isSuite
  exact sized.provider.tag suite (List.mem_of_find?_eq_some found)

/-- The keys and the number of receive epochs stay. -/
theorem Sizes.of_same (config : e'.config = e.config) (keys : e'.hsSendKeys = e.hsSendKeys)
    (epochs : e'.appRecvKeys.length = e.appRecvKeys.length) : Sizes tagLen e e' := by
  refine ⟨config, fun sized => ⟨config ▸ sized.provider, fun send isSend => ?_, epochs ▸ sized.epochs⟩⟩
  exact sized.seals send (keys ▸ isSend)

theorem length_updateFirst {epoch : Nat} {f : RecvEpochEntry → RecvEpochEntry}
    {entries : List RecvEpochEntry} : (Engine.updateFirst epoch f entries).length = entries.length := by
  induction entries with
  | nil => rfl
  | cons entry rest inductionHypothesis =>
      unfold Engine.updateFirst
      split
      · rfl
      · exact congrArg (· + 1) inductionHypothesis

/-- What the steps of an engine leave alone. -/
theorem Step.keeps {S : Bytes → Prop} {K : Prop} (step : Step S K e e') :
    e'.hsSendKeys = e.hsSendKeys ∧ e'.appRecvKeys.length = e.appRecvKeys.length := by
  cases step with
  | other same => exact ⟨congrArg Core.hsSendKeys same, congrArg (fun c => c.appRecvKeys.length) same⟩
  | opened slice fresh decrypted =>
      unfold Engine.replayUpdate Engine.logEvent
      split
      · exact ⟨rfl, rfl⟩
      · exact ⟨rfl, length_updateFirst⟩
  | queue sources => exact ⟨rfl, rfl⟩
  | delivered released queued data => exact ⟨rfl, rfl⟩
  | assembled carried => exact ⟨rfl, rfl⟩
  | @sealed epoch keys available room known =>
      unfold Engine.logEvent
      cases e.sendSlot epoch <;> exact ⟨rfl, rfl⟩
  | forgotten => exact ⟨rfl, rfl⟩

theorem Steps.keeps {S : Bytes → Prop} {K : Prop} (steps : Steps S K e e') :
    e'.hsSendKeys = e.hsSendKeys ∧ e'.appRecvKeys.length = e.appRecvKeys.length := by
  induction steps with
  | refl => exact ⟨rfl, rfl⟩
  | tail _ step inductionHypothesis =>
      exact ⟨step.keeps.1.trans inductionHypothesis.1, step.keeps.2.trans inductionHypothesis.2⟩

/-- Steps keep the lengths. -/
theorem Sizes.of_quiet (quiet : Quiet (fun _ => True) False e e') (config : e'.config = e.config) :
    Sizes tagLen e e' := by
  obtain ⟨keys, epochs⟩ := (quiet fun impossible => impossible.elim).1.keeps
  exact .of_same config keys epochs

/-- Steps within the frame keep the lengths. -/
theorem sizes_of_quiet {α : Type} {program : EngineM α}
    (quiet : Along (Quiet (fun _ => True) False) program) (frame : Along (Frame True) program) :
    Along (Sizes tagLen) program :=
  fun e => ((quiet e).and (frame e)).mono (fun _ _ both => .of_quiet both.1 both.2.config)
    fun _ _ both => .of_quiet both.1 both.2.config

end Relation

section Functions

variable {tagLen : Nat}

/-- Keys are derived with the cipher of a suite. -/
theorem deriveEpochKeys_appends {epoch : Nat} {trafficSecret : Bytes} {e : Engine}
    (provider : e.config.cryptoProvider.Sized tagLen) :
    Post (deriveEpochKeys epoch trafficSecret) e (fun keys _ => keys.cipher.Appends tagLen)
      (fun _ _ => True) := by
  unfold deriveEpochKeys suiteProvider
  simp only [post_bind, post_get, post_orThrow]
  refine ⟨fun suite isSuite => ?_, fun _ => trivial⟩
  have offered : suite ∈ e.config.cryptoProvider.dtls13CipherSuites := by
    obtain ⟨name, _, found⟩ := Option.bind_eq_some_iff.mp isSuite
    exact List.mem_of_find?_eq_some found
  refine post_self.mono (fun key e₁ _ => ?_) fun _ _ _ => trivial
  refine post_self.mono (fun iv e₂ _ => ?_) fun _ _ _ => trivial
  refine post_self.mono (fun snKey e₃ _ => ?_) fun _ _ _ => trivial
  rw [post_liftCrypto]
  refine ⟨fun cipher created => ?_, fun _ _ => trivial⟩
  rw [post_ite]
  exact ⟨fun _ => provider.appends suite offered key cipher created, fun _ => trivial⟩

theorem deriveEpochKeys_sizes {epoch : Nat} {trafficSecret : Bytes} :
    Along (Sizes tagLen) (deriveEpochKeys epoch trafficSecret) := by
  intro e
  refine deriveEpochKeys_post.mono ?_ fun _ _ same => same ▸ Sizes.refl _
  rintro keys _ ⟨_, rfl⟩
  exact .of_same rfl rfl rfl

theorem installHandshakeKeys_sizes {client server : Bytes} :
    Along (Sizes tagLen) (installHandshakeKeys client server) := by
  refine along_get_bind fun e => ?_
  dsimp only
  rw [post_bind]
  refine (deriveEpochKeys_post.and (post_imp (@deriveEpochKeys_appends tagLen _ _ _))).mono ?_ fun _ _ failed => failed.1 ▸ Sizes.refl _
  rintro send _ ⟨⟨_, rfl⟩, appends⟩
  rw [post_bind, post_modify]
  have sent : Sizes tagLen e
      { e with installations := e.installations + 1, hsSendKeys := some send } := by
    refine ⟨rfl, fun sized => ⟨sized.provider, fun keys isKeys => ?_, sized.epochs⟩⟩
    cases isKeys
    exact appends sized.provider
  refine (along_bind deriveEpochKeys_sizes fun recv => along_modify fun e₂ => ?_).after sent
  exact .of_same rfl rfl rfl

/-- A receive epoch is added only where there is room. -/
theorem pushRecvEpoch_sizes {epoch : Nat} {keys : EpochKeys} :
    Along (Sizes tagLen) (pushRecvEpoch epoch keys) := by
  refine along_get_bind fun e => ?_
  rw [post_ite, post_set]
  refine ⟨fun room => ⟨rfl, fun sized => ⟨sized.provider, sized.seals, ?_⟩⟩, fun _ => Sizes.refl e⟩
  simp only [List.length_append, List.length_singleton]
  omega

theorem installApplicationKeys_sizes {client server : Bytes} :
    Along (Sizes tagLen) (installApplicationKeys client server) := by
  refine along_bind along_get fun e => along_bind deriveEpochKeys_sizes fun send => ?_
  refine along_bind (along_modify fun _ => .of_same rfl rfl rfl) fun _ => ?_
  refine along_bind deriveEpochKeys_sizes fun recv => along_bind pushRecvEpoch_sizes fun _ => ?_
  exact along_modify fun _ => .of_same rfl rfl rfl

theorem createCiphertextRecord_sizes {contentType : ContentType} {epoch : Nat} {saveFragment : Bool}
    {fragment : Bytes} :
    Along (Sizes tagLen) (createCiphertextRecord contentType epoch saveFragment fragment) := by
  refine sizes_of_quiet (fun e => ?_) createCiphertextRecord_frame
  exact (createCiphertextRecord_sends fun impossible => impossible.elim).mono
    (fun _ _ sends => sends.1) fun _ _ sends => sends.1

theorem createKeyUpdate_sizes {request : KeyUpdateRequest} :
    Along (Sizes tagLen) (createKeyUpdate request) := by
  have rotated : Along (Sizes tagLen) updateSendKeys := by
    refine along_bind along_get fun e => along_bind along_orThrow fun keys => ?_
    refine along_bind (along_modify fun _ => .of_same rfl rfl rfl) fun _ => ?_
    refine along_bind deriveNextTrafficSecret_readOnly.along fun secret => ?_
    refine along_bind deriveEpochKeys_sizes fun keys => along_modify fun _ => ?_
    exact .of_same rfl rfl rfl
  refine along_bind (along_modify fun _ => .of_same rfl rfl rfl) fun _ => along_get_bind fun e => ?_
  rw [post_bind, post_set]
  refine (along_bind createCiphertextRecord_sizes fun _ => rotated).after ?_
  exact .of_same rfl rfl rfl

theorem updateRecvKeys_sizes : Along (Sizes tagLen) updateRecvKeys := by
  refine along_bind along_get fun e => along_bind along_orThrow fun latest => ?_
  refine along_bind deriveNextTrafficSecret_readOnly.along fun secret => ?_
  refine along_bind deriveEpochKeys_sizes fun keys => ?_
  refine along_bind (along_modify fun e₁ => ?_) fun _ => pushRecvEpoch_sizes
  refine ⟨rfl, fun sized => ⟨sized.provider, sized.seals, ?_⟩⟩
  dsimp only
  split
  · rw [List.length_tail]
    exact Nat.le_trans (Nat.sub_le _ _) sized.epochs
  · exact sized.epochs

theorem reparse_sizes {buffers : List Bytes} : Along (Sizes tagLen) (reparse buffers) :=
  sizes_of_quiet (reparse_quiet fun _ _ _ _ => trivial) reparse_frame

theorem enablePeerEncryption_sizes : Along (Sizes tagLen) enablePeerEncryption := by
  refine along_get_bind fun e => ?_
  dsimp only
  rw [post_bind, post_set]
  exact reparse_sizes.after (.of_same rfl rfl rfl)

theorem receivePacket_sizes {datagram : Bytes} : Along (Sizes tagLen) (receivePacket datagram) := by
  refine along_bind (along_modify fun _ => .of_same rfl rfl rfl) fun _ => ?_
  exact sizes_of_quiet (parsePacket_quiet fun _ _ => trivial) parsePacket_frame

/-- Every function of the engine keeps the lengths. -/
theorem sizes_conducts : Conducts (Sizes tagLen) where
  nextHandshake := sizes_of_quiet nextHandshakeWithOptions_quiet nextHandshakeWithOptions_frame
  advance := fun _ => .of_same rfl rfl rfl
  flightBegin := fun _ => .of_same rfl rfl rfl
  flightStop := fun _ => .of_same rfl rfl rfl
  createHandshake := fun readOnly => sizes_of_quiet (createHandshake_quiet readOnly.along)
    (createHandshake_frame readOnly.along)
  truncate := fun _ _ => .of_same rfl rfl rfl
  setCipherSuite := fun _ _ => .of_same rfl rfl rfl
  replaceTranscript := replaceTranscriptWithMessageHash_along fun _ _ => .of_same rfl rfl rfl
  resetForHelloRetry := fun _ => .of_same rfl rfl rfl
  enablePeerEncryption := enablePeerEncryption_sizes
  installHandshakeKeys := installHandshakeKeys_sizes
  deriveApplicationSecrets := deriveApplicationSecrets_along fun _ _ => .of_same rfl rfl rfl
  installApplicationKeys := installApplicationKeys_sizes
  sendData := createCiphertextRecord_sizes
  sendAck := sizes_of_quiet sendAck_quiet sendAck_frame
  createKeyUpdate := createKeyUpdate_sizes
  updateRecvKeys := updateRecvKeys_sizes
  release := fun _ => .of_same rfl rfl rfl
  needsKeyUpdate := fun _ => .of_same rfl rfl rfl
  receivePacket := receivePacket_sizes
  pollOutput := sizes_of_quiet pollOutput_quiet pollOutput_frame
  sendAlert := createCiphertextRecord_sizes
  cancelFlights := fun _ => .of_same rfl rfl rfl
  abort := fun _ => .of_same rfl rfl rfl

theorem handleTimeout_sizes {now : Instant} : Along (Sizes tagLen) (Engine.handleTimeout now) :=
  fun e => ((handleTimeout_quiet e).and (@handleTimeout_frame True e now)).mono
    (fun _ _ both => .of_quiet both.1 both.2.config) fun _ _ both => .of_quiet both.1 both.2.config

end Functions

section Runs

variable {tagLen : Nat}

/-- A call keeps the lengths. -/
theorem Client.exec_sizes {c : Client} {call : Client.Call} :
    Sizes tagLen c.engine (c.exec call).engine :=
  Client.exec_conduct handleTimeout_sizes (fun _ _ => .of_same rfl rfl rfl) sizes_conducts

/-- A call keeps the lengths. -/
theorem Server.exec_sizes {s : Server} {call : Server.Call} :
    Sizes tagLen s.engine (s.exec call).engine :=
  Server.exec_conduct handleTimeout_sizes (fun _ _ => .of_same rfl rfl rfl) sizes_conducts

/-- Every client that calls reach has the lengths its provider promises. -/
theorem Client.run_sized {start : Client} {calls : List Client.Call} (isStart : start.Start)
    (provider : start.engine.config.cryptoProvider.Sized tagLen) :
    (run Client.exec start calls).engine.Sized tagLen := by
  have sized : start.engine.Sized tagLen := by
    cases isStart <;> exact ⟨provider, fun _ isKeys => (by cases isKeys), Nat.zero_le 4⟩
  have step : ∀ (c : Client) call, c.engine.Sized tagLen → True → (c.exec call).engine.Sized tagLen :=
    fun _ _ before _ => Client.exec_sizes.2 before
  exact run_invariant step sized (.of_all fun _ _ => trivial)

/-- Every server that calls reach has the lengths its provider promises. -/
theorem Server.run_sized {start : Server} {calls : List Server.Call} (isStart : start.Start)
    (provider : start.engine.config.cryptoProvider.Sized tagLen) :
    (run Server.exec start calls).engine.Sized tagLen := by
  have sized : start.engine.Sized tagLen := by
    cases isStart
    exact ⟨provider, fun _ isKeys => (by cases isKeys), Nat.zero_le 4⟩
  have step : ∀ (s : Server) call, s.engine.Sized tagLen → True → (s.exec call).engine.Sized tagLen :=
    fun _ _ before _ => Server.exec_sizes.2 before
  exact run_invariant step sized (.of_all fun _ _ => trivial)

end Runs

end Dtls13

end Dimpl
