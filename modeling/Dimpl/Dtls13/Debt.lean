import Dimpl.Dtls13.ClientRun
import Dimpl.Dtls13.ServerRun

/-!
# What an endpoint owes

A KeyUpdate that asks for one in return is answered by a later call. Until then the answer
is owed. Application data that was queued during the handshake and the mark of an owed
answer are touched by the handler of an established connection alone.
-/

namespace Dimpl.Dtls13

open Nom Program

namespace Endpoint

/-- The mark of an owed answer and the data that waits for the handshake. -/
def debt (p : Endpoint) : Bool × List Bytes := (p.pendingKeyUpdateResponse, p.queuedData)

theorem withEngine_debt {α : Type} {program : EngineM α} : Along (Keeps debt) (withEngine program) := by
  intro p
  unfold withEngine
  rw [post_zoom]
  exact post_self.mono (fun _ _ _ => rfl) fun _ _ _ => rfl

theorem modify_debt {f : Endpoint → Endpoint} (same : ∀ p, (f p).debt = p.debt) :
    Along (Keeps debt) (modify f : EndpointM PUnit) :=
  along_modify same

theorem startExchange_debt {kx : SupportedKxGroup} : Along (Keeps debt) (startExchange kx) := by
  refine along_get_bind fun p => ?_
  dsimp only
  rw [post_bind, post_set]
  exact along_liftCrypto.after rfl

theorem installHandshakeSecrets_debt {sharedSecret : Bytes} :
    Along (Keeps debt) (installHandshakeSecrets sharedSecret) :=
  along_bind withEngine_debt fun _ => along_bind (modify_debt fun _ => rfl) fun _ => withEngine_debt

theorem installApplicationSecrets_debt : Along (Keeps debt) installApplicationSecrets :=
  along_bind along_get fun _ => along_bind along_orThrow fun _ =>
    along_bind withEngine_debt fun _ => withEngine_debt

theorem takeCertificates_debt {certificate : Certificate} {buffer : Bytes} :
    Along (Keeps debt) (takeCertificates certificate buffer) := by
  refine along_bind (modify_debt fun _ => rfl) fun _ => along_bind (modify_debt fun _ => rfl) fun _ => ?_
  exact along_bind along_get fun _ => along_ite (fun _ => along_pure) fun _ => modify_debt fun _ => rfl

theorem checkCertificateVerify_debt {label : String} {missing : CertificateError}
    {transcript transcriptHash : Bytes} {signed : DigitallySigned} {buffer : Bytes} :
    Along (Keeps debt)
      (checkCertificateVerify label missing transcript transcriptHash signed buffer) := by
  refine along_bind along_get fun p => ?_
  dsimp only
  split
  · exact along_throw
  · refine along_bind withEngine_debt fun _ => ?_
    exact along_bind (modify_debt fun _ => rfl) fun _ => withEngine_debt

theorem checkFinished_debt {failed : SecurityError} {transcript expected verifyData : Bytes} :
    Along (Keeps debt) (checkFinished failed transcript expected verifyData) :=
  along_ite (fun _ => along_throw) fun _ => along_bind (modify_debt fun _ => rfl) fun _ => withEngine_debt

theorem completeHandshake_debt : Along (Keeps debt) completeHandshake := by
  refine along_bind (modify_debt fun _ => rfl) fun _ => along_bind ?_ fun _ => withEngine_debt
  refine along_bind along_get fun p => ?_
  split
  · exact along_pure
  · split
    · exact modify_debt fun _ => rfl
    · exact along_throw
    · exact along_pure

theorem onKeyUpdate_debt {handle : KeyUpdateRequest → EndpointM Unit}
    (handles : ∀ request, Along (Keeps debt) (handle request)) :
    Along (Keeps debt) (onKeyUpdate handle) := by
  refine along_bind withEngine_debt fun found => ?_
  cases found with
  | none => exact along_pure
  | some message =>
      dsimp only
      split
      · exact handles _
      · exact along_throw

theorem halfClosedLocal_debt : Along (Keeps debt) halfClosedLocal := by
  refine along_bind (onKeyUpdate_debt fun _ => ?_) fun _ => along_bind along_get fun _ => along_pure
  exact along_bind withEngine_debt fun _ => withEngine_debt

theorem initiateKeyUpdate_debt : Along (Keeps debt) initiateKeyUpdate :=
  along_bind withEngine_debt fun _ => along_bind along_get fun _ => withEngine_debt

theorem handleTimeout_debt {now : Instant} : Along (Keeps debt) (handleTimeout now) := by
  refine along_bind (modify_debt fun _ => rfl) fun _ => along_bind ?_ fun _ => withEngine_debt
  refine along_bind along_get fun p => ?_
  split
  · exact along_pure
  · exact along_bind withEngine_debt fun _ => modify_debt fun _ => rfl

theorem pollOutput_debt {bufLen : Nat} : Along (Keeps debt) (pollOutput bufLen) := by
  refine along_get_bind fun p => ?_
  split
  · rename_i event rest queued
    rw [post_bind, post_set]
    exact (intoOutput_readOnly.along).after rfl
  · exact withEngine_debt p

theorem closeWrite_debt : Along (Keeps debt) closeWrite :=
  along_bind along_get fun _ => along_bind withEngine_debt fun _ => withEngine_debt

end Endpoint

namespace Client

/-- What a client owes. -/
def debt (c : Client) : Bool × List Bytes := c.endpoint.debt

theorem withEndpoint_debt {α : Type} {program : EndpointM α}
    (keeps : Along (Keeps Endpoint.debt) program) : Along (Keeps debt) (withEndpoint program) :=
  along_zoom keeps fun _ _ same => same

theorem withEngine_debt {α : Type} {program : EngineM α} : Along (Keeps debt) (withEngine program) :=
  withEndpoint_debt Endpoint.withEngine_debt

theorem modify_debt {f : Client → Client} (same : ∀ c, (f c).debt = c.debt) :
    Along (Keeps debt) (modify f : ClientM PUnit) :=
  along_modify same

theorem advance_debt {next : State} : Along (Keeps debt) (advance next) :=
  along_bind withEngine_debt fun _ => along_pure

theorem onHandshake_debt {wanted : MessageType} {stay : State} {handle : Body → Bytes → ClientM State}
    (handles : ∀ body buffer, Along (Keeps debt) (handle body buffer)) :
    Along (Keeps debt) (onHandshake wanted stay handle) := by
  refine along_bind withEngine_debt fun found => ?_
  cases found with
  | none => exact along_pure
  | some message => exact handles _ _

theorem sendClientHello_debt : Along (Keeps debt) sendClientHello := by
  refine along_bind along_get fun c => along_bind along_orThrow fun random => ?_
  refine along_bind withEngine_debt fun _ => along_bind ?_ fun group => along_bind along_get fun c => ?_
  · refine along_bind along_get fun c => ?_
    split
    · exact along_pure
    · exact along_orThrow
  · refine along_bind along_orThrow fun kx => ?_
    refine along_bind (withEndpoint_debt Endpoint.startExchange_debt) fun exchange => ?_
    refine along_bind (modify_debt fun _ => rfl) fun _ => along_bind along_get fun c => ?_
    exact along_bind withEngine_debt fun _ => along_pure

theorem handleHelloRetryRequest_debt {lengthBefore : Nat} {hello : ServerHello} {buffer : Bytes} :
    Along (Keeps debt) (handleHelloRetryRequest lengthBefore hello buffer) := by
  have extensions : ∀ list, Along (Keeps debt) (readRetryExtensions buffer list) := by
    intro list
    induction list with
    | nil => exact along_pure
    | cons ext rest inductionHypothesis =>
        refine along_ite (fun _ => ?_) fun _ => along_ite (fun _ => ?_) fun _ => inductionHypothesis
        · exact along_bind (modify_debt fun _ => rfl) fun _ => inductionHypothesis
        · split
          · exact along_throw
          · exact along_bind (modify_debt fun _ => rfl) fun _ => inductionHypothesis
  refine along_bind along_get fun c => along_ite (fun _ => ?_) fun _ => ?_
  · exact along_bind withEngine_debt fun _ => along_pure
  · refine along_bind (extensions _) fun _ => along_bind along_get fun c => ?_
    refine along_ite (fun _ => along_throw) fun _ => along_bind withEngine_debt fun _ => ?_
    refine along_ite (fun _ => along_throw) fun _ => along_bind withEngine_debt fun _ => ?_
    refine along_bind withEngine_debt fun _ => along_bind withEngine_debt fun _ => ?_
    exact along_bind (modify_debt fun _ => rfl) fun _ => along_pure

theorem handleServerHello_debt {hello : ServerHello} {buffer : Bytes} :
    Along (Keeps debt) (handleServerHello hello buffer) := by
  have completed : ∀ group publicKey, Along (Keeps debt) (completeExchange group publicKey) := by
    intro group publicKey
    refine along_get_bind fun c => ?_
    rw [post_bind, post_orThrow]
    refine ⟨fun exchange _ => ?_, fun _ => rfl⟩
    rw [post_bind, post_set]
    exact (along_ite (fun _ => along_throw) fun _ => along_liftCrypto).after rfl
  refine along_bind along_get fun c => ?_
  split
  · exact along_throw
  · refine along_bind withEngine_debt fun _ => along_bind (modify_debt fun _ => rfl) fun _ => ?_
    split
    · exact along_throw
    · split
      · exact along_throw
      · exact along_throw
      · refine along_bind (completed _ _) fun sharedSecret => ?_
        refine along_bind (withEndpoint_debt Endpoint.installHandshakeSecrets_debt) fun _ => ?_
        exact along_bind withEngine_debt fun _ => advance_debt

theorem awaitEncryptedExtensions_debt : Along (Keeps debt) awaitEncryptedExtensions := by
  have extensions : ∀ buffer list, Along (Keeps debt) (readEncryptedExtensions buffer list) := by
    intro buffer list
    induction list with
    | nil => exact along_pure
    | cons ext rest inductionHypothesis =>
        refine along_ite (fun _ => ?_) fun _ => inductionHypothesis
        split
        · exact along_throw
        · refine along_bind (withEndpoint_debt ?_) fun _ => inductionHypothesis
          exact Endpoint.modify_debt fun _ => rfl
  refine onHandshake_debt fun body buffer => ?_
  split
  · exact along_bind (extensions _ _) fun _ => advance_debt
  · exact along_throw

theorem awaitCertificate_debt : Along (Keeps debt) awaitCertificate := by
  refine onHandshake_debt fun body buffer => ?_
  split
  · refine along_ite (fun _ => along_throw) fun _ => along_ite (fun _ => along_throw) fun _ => ?_
    exact along_bind (withEndpoint_debt Endpoint.takeCertificates_debt) fun _ => advance_debt
  · exact along_throw

theorem awaitFinished_debt : Along (Keeps debt) awaitFinished := by
  refine along_bind along_get fun c => along_bind along_get fun c => along_bind along_orThrow fun _ => ?_
  refine along_bind withEngine_debt fun _ => onHandshake_debt fun body buffer => ?_
  split
  · refine along_bind (withEndpoint_debt Endpoint.checkFinished_debt) fun _ => ?_
    refine along_bind (withEndpoint_debt Endpoint.installApplicationSecrets_debt) fun _ => ?_
    exact along_bind along_get fun _ => along_pure
  · exact along_throw

/-- The handlers other than that of an established connection leave the debt alone. -/
theorem handlers_debt {state : State} (other : state ≠ .awaitApplicationData) :
    Along (Keeps debt) state.makeProgress := by
  cases state with
  | sendClientHello => exact sendClientHello_debt
  | awaitServerHello =>
      refine along_bind along_get fun c => onHandshake_debt fun body buffer => ?_
      split
      · exact along_ite (fun _ => handleHelloRetryRequest_debt) fun _ => handleServerHello_debt
      · exact along_throw
  | awaitEncryptedExtensions => exact awaitEncryptedExtensions_debt
  | awaitCertificateRequest =>
      refine along_bind along_get fun c => along_ite (fun _ => along_pure) fun _ => ?_
      refine onHandshake_debt fun body buffer => ?_
      split
      · split
        · exact along_throw
        · exact along_bind (modify_debt fun _ => rfl) fun _ => advance_debt
      · exact along_throw
  | awaitCertificate => exact awaitCertificate_debt
  | awaitCertificateVerify =>
      refine along_bind along_get fun c => along_bind withEngine_debt fun _ => ?_
      refine onHandshake_debt fun body buffer => ?_
      split
      · exact along_bind (withEndpoint_debt Endpoint.checkCertificateVerify_debt) fun _ => along_pure
      · exact along_throw
  | awaitFinished => exact awaitFinished_debt
  | sendCertificate =>
      refine along_bind withEngine_debt fun _ => along_bind along_get fun c => along_bind along_get fun c => ?_
      exact along_ite (fun _ => along_bind withEngine_debt fun _ => along_pure)
        fun _ => along_bind withEngine_debt fun _ => along_pure
  | sendCertificateVerify => exact along_bind withEngine_debt fun _ => along_pure
  | sendFinished =>
      refine along_bind along_get fun c => along_bind withEngine_debt fun _ => along_bind along_get fun c => ?_
      refine along_bind along_orThrow fun _ => along_bind withEngine_debt fun _ => ?_
      exact along_bind (withEndpoint_debt Endpoint.completeHandshake_debt) fun _ => along_pure
  | awaitApplicationData => exact absurd rfl other
  | halfClosedLocal =>
      exact along_bind (withEndpoint_debt Endpoint.halfClosedLocal_debt) fun _ => along_pure
  | closed => exact along_pure

end Client

namespace Server

/-- What a server owes. -/
def debt (s : Server) : Bool × List Bytes := s.endpoint.debt

theorem withEndpoint_debt {α : Type} {program : EndpointM α}
    (keeps : Along (Keeps Endpoint.debt) program) : Along (Keeps debt) (withEndpoint program) :=
  along_zoom keeps fun _ _ same => same

theorem withEngine_debt {α : Type} {program : EngineM α} : Along (Keeps debt) (withEngine program) :=
  withEndpoint_debt Endpoint.withEngine_debt

theorem modify_debt {f : Server → Server} (same : ∀ s, (f s).debt = s.debt) :
    Along (Keeps debt) (modify f : ServerM PUnit) :=
  along_modify same

theorem advance_debt {next : State} : Along (Keeps debt) (advance next) :=
  along_bind withEngine_debt fun _ => along_pure

theorem onMessage_debt {program : EngineM (Option (Handshake × Bytes))} {stay : State}
    {handle : Body → Bytes → ServerM State}
    (handles : ∀ body buffer, Along (Keeps debt) (handle body buffer)) :
    Along (Keeps debt) (onMessage program stay handle) := by
  refine along_bind withEngine_debt fun found => ?_
  cases found with
  | none => exact along_pure
  | some message => exact handles _ _

theorem computeCookie_debt {random : Random} : Along (Keeps debt) (computeCookie random) := by
  refine along_bind along_get fun s => ?_
  split
  · exact along_pure
  · exact along_throw

theorem retryHello_debt {suite : Dtls13CipherSuite} {random : Random} {group : Option NamedGroup} :
    Along (Keeps debt) (retryHello suite random group) := by
  have sent : ∀ cookie, Along (Keeps debt) (sendHelloRetryRequest suite cookie group) := fun cookie =>
    along_bind along_get fun _ => along_bind withEngine_debt fun _ => withEngine_debt
  refine along_bind withEngine_debt fun _ => along_bind along_get fun s => ?_
  refine along_bind withEngine_debt fun _ => along_bind computeCookie_debt fun cookie => ?_
  refine along_bind (sent cookie) fun _ => along_bind withEngine_debt fun _ => ?_
  refine along_bind withEngine_debt fun _ => along_bind (withEndpoint_debt ?_) fun _ => along_pure
  exact Endpoint.modify_debt fun _ => rfl

theorem acceptShare_debt {suite : Dtls13CipherSuite} {share : KeyShareEntry}
    {profiles : Option (List SrtpProfile)} {buffer : Bytes} :
    Along (Keeps debt) (acceptShare suite share profiles buffer) := by
  refine along_bind along_get fun s => along_bind along_orThrow fun kx => ?_
  refine along_bind (withEndpoint_debt Endpoint.startExchange_debt) fun exchange => ?_
  refine along_bind (modify_debt fun _ => rfl) fun _ => along_bind along_liftCrypto fun _ => ?_
  refine along_bind (modify_debt fun _ => rfl) fun _ => along_bind withEngine_debt fun _ => ?_
  exact along_bind (modify_debt fun _ => rfl) fun _ => advance_debt

theorem acceptClientHello_debt {lengthBefore : Nat} {hello : ClientHello} {found : HelloExtensions}
    {buffer : Bytes} : Along (Keeps debt) (acceptClientHello lengthBefore hello found buffer) := by
  have cookies : ∀ random cookie, Along (Keeps debt) (checkCookie random cookie) := by
    intro random cookie
    refine along_bind along_get fun s => along_ite (fun _ => ?_) fun _ => along_pure
    refine along_bind computeCookie_debt fun expected => ?_
    cases cookie with
    | some cookie => exact along_ite (fun _ => along_throw) fun _ => along_pure
    | none => exact along_pure
  have shares : ∀ suite groups, Along (Keeps debt) (selectShare suite hello.random groups found buffer) := by
    intro suite groups
    unfold selectShare
    split
    · exact acceptShare_debt
    · split
      · exact along_throw
      · exact along_bind along_get fun s => along_ite (fun _ => along_throw) fun _ => retryHello_debt
  refine along_bind along_get fun s => along_bind along_orThrow fun suite => ?_
  refine along_bind (modify_debt fun _ => rfl) fun _ => along_bind withEngine_debt fun groups => ?_
  refine along_bind (cookies _ _) fun accepted => along_ite (fun _ => shares _ _) fun _ => ?_
  refine along_bind along_get fun s => along_ite (fun _ => ?_) fun _ => retryHello_debt
  exact along_bind withEngine_debt fun _ => along_pure

theorem awaitClientHello_debt : Along (Keeps debt) awaitClientHello := by
  refine along_bind along_get fun s => onMessage_debt fun body buffer => ?_
  split
  · unfold handleClientHello
    split
    · exact along_throw
    · refine along_bind ?_ fun found => ?_
      · cases readExtensions buffer _ with
        | ok found => exact along_pure
        | error fault => exact along_throw
      · refine along_ite (fun _ => along_bind along_get fun s => ?_) fun _ => acceptClientHello_debt
        exact along_ite (fun _ => along_throw) fun _ => along_throw
  · exact along_throw

theorem sendServerHello_debt : Along (Keeps debt) sendServerHello := by
  refine along_get_bind fun s => ?_
  rw [post_bind, post_orThrow]
  refine ⟨fun random _ => ?_, fun _ => rfl⟩
  rw [post_bind, post_orThrow]
  refine ⟨fun stored _ => ?_, fun _ => rfl⟩
  dsimp only
  rw [post_bind, post_set]
  refine Along.after (s := s) ?_ rfl
  refine along_bind withEngine_debt fun _ => along_bind withEngine_debt fun _ => ?_
  refine along_bind along_get fun s => along_bind along_orThrow fun _ => ?_
  refine along_bind (modify_debt fun _ => rfl) fun _ => ?_
  exact along_bind (withEndpoint_debt Endpoint.installHandshakeSecrets_debt) fun _ => along_pure

theorem awaitCertificate_debt : Along (Keeps debt) awaitCertificate := by
  refine onMessage_debt fun body buffer => ?_
  split
  · refine along_ite (fun _ => ?_) fun _ => ?_
    · exact along_bind withEngine_debt fun _ => along_bind withEngine_debt fun _ => along_pure
    · refine along_bind (withEndpoint_debt Endpoint.takeCertificates_debt) fun _ => ?_
      exact along_bind withEngine_debt fun _ => advance_debt
  · exact along_throw

theorem awaitFinished_debt : Along (Keeps debt) awaitFinished := by
  refine along_bind along_get fun s => along_bind along_get fun s => along_bind along_orThrow fun _ => ?_
  refine along_bind withEngine_debt fun _ => onMessage_debt fun body buffer => ?_
  split
  · refine along_bind (withEndpoint_debt Endpoint.checkFinished_debt) fun _ => ?_
    refine along_bind withEngine_debt fun _ => along_bind withEngine_debt fun _ => ?_
    exact along_bind (withEndpoint_debt Endpoint.completeHandshake_debt) fun _ => along_pure
  · exact along_throw

/-- The handlers other than that of an established connection leave the debt alone. -/
theorem handlers_debt {state : State} (other : state ≠ .awaitApplicationData) :
    Along (Keeps debt) state.makeProgress := by
  cases state with
  | awaitClientHello => exact awaitClientHello_debt
  | sendServerHello => exact sendServerHello_debt
  | sendEncryptedExtensions =>
      refine along_bind along_get fun s => along_bind withEngine_debt fun _ => ?_
      exact along_bind along_get fun _ => along_pure
  | sendCertificateRequest =>
      refine along_bind withEngine_debt fun _ => along_bind (withEndpoint_debt ?_) fun _ => along_pure
      exact Endpoint.modify_debt fun _ => rfl
  | sendCertificate => exact along_bind withEngine_debt fun _ => along_pure
  | sendCertificateVerify => exact along_bind withEngine_debt fun _ => along_pure
  | sendFinished =>
      refine along_bind along_get fun s => along_bind along_orThrow fun _ => ?_
      refine along_bind withEngine_debt fun _ => ?_
      refine along_bind (withEndpoint_debt Endpoint.installApplicationSecrets_debt) fun _ => ?_
      exact along_bind withEngine_debt fun _ => along_bind along_get fun _ => along_pure
  | awaitCertificate => exact awaitCertificate_debt
  | awaitCertificateVerify =>
      refine along_bind along_get fun s => along_bind withEngine_debt fun _ => ?_
      refine onMessage_debt fun body buffer => ?_
      split
      · exact along_bind (withEndpoint_debt Endpoint.checkCertificateVerify_debt) fun _ => along_pure
      · exact along_throw
  | awaitFinished => exact awaitFinished_debt
  | awaitApplicationData => exact absurd rfl other
  | halfClosedLocal =>
      exact along_bind (withEndpoint_debt Endpoint.halfClosedLocal_debt) fun _ => along_pure
  | closed => exact along_pure

end Server

end Dimpl.Dtls13
