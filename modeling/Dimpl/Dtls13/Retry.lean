import Dimpl.Dtls13.Policy
import Dimpl.Dtls13.Selection
import Dimpl.Dtls13.Sizes

/-!
# A HelloRetryRequest and what comes after it

What the hellos of a handshake say, in the order a client deals with them. The hello after
a HelloRetryRequest carries its cookie and a key share of its group, and the ServerHello has to
answer that share. Its suite is looked at on its own.
-/

namespace Dimpl

/-- The exchanges that a group starts are for that group. -/
def Config.Named (config : Config) : Prop :=
  ∀ kx ∈ config.kxGroups, ∀ entropy exchange, kx.startExchange entropy = .ok exchange →
    exchange.group = kx.name

namespace Dtls13

open Nom Program

namespace Extension

variable {parts : List (ExtensionType × Bytes)}

theorem layout_concat {part : ExtensionType × Bytes} :
    layout (parts ++ [part]) =
      ((layout parts).1 ++ [⟨part.1, ⟨(layout parts).2.length, (layout parts).2.length + part.2.length⟩⟩],
        (layout parts).2 ++ part.2) := by
  simp [layout, List.foldl_append]

/-- Every part is laid out. -/
theorem mem_layout {part : ExtensionType × Bytes} (member : part ∈ parts) :
    ∃ ext ∈ (layout parts).1, ext.extensionType = part.1 ∧
      ext.extensionDataRange.stop ≤ (layout parts).2.length ∧
      ext.extensionData (layout parts).2 = part.2 := by
  induction parts using List.reverseRecOn with
  | nil => exact absurd member List.not_mem_nil
  | append_singleton parts last inductionHypothesis =>
      rw [layout_concat]
      rcases List.mem_append.mp member with old | new
      · obtain ⟨ext, isExt, type, inside, data⟩ := inductionHypothesis old
        refine ⟨ext, List.mem_append_left _ isExt, type, ?_, ?_⟩
        · rw [List.length_append]
          omega
        · unfold extensionData slice at data ⊢
          rw [← data, List.drop_append, List.take_append]
          have short : ext.extensionDataRange.stop - ext.extensionDataRange.start -
              ((layout parts).2.drop ext.extensionDataRange.start).length = 0 := by
            rw [List.length_drop]
            omega
          rw [short]
          simp
      · cases List.mem_singleton.mp new
        refine ⟨_, List.mem_append_right _ List.mem_cons_self, rfl, by simp, ?_⟩
        simp [extensionData, slice]

theorem serialize_within {extensions : List Extension} {buffer : Bytes} {ext : Extension}
    (member : ext ∈ extensions) : ext.serialize buffer <:+: serializeAll extensions buffer := by
  obtain ⟨front, back, rfl⟩ := List.append_of_mem member
  unfold serializeAll
  refine List.IsInfix.trans ?_ (List.suffix_append _ _).isInfix
  simp only [List.flatMap_append, List.flatMap_cons]
  exact ⟨front.flatMap fun ext => ext.serialize buffer, back.flatMap fun ext => ext.serialize buffer,
    by simp⟩

end Extension

/-- Every extension of a hello is in what is sent. -/
theorem ClientHello.extension_within {hello : ClientHello} {buffer : Bytes} {ext : Extension}
    (member : ext ∈ hello.extensions) : ext.serialize buffer <:+: hello.serialize buffer := by
  have filled : hello.extensions.isEmpty = false := List.isEmpty_eq_false_iff_exists_mem.mpr ⟨ext, member⟩
  unfold ClientHello.serialize
  rw [filled]
  exact (Extension.serialize_within member).trans (List.suffix_append _ _).isInfix

/-- A hello with an extension among its parts. -/
theorem ClientHello.layout_within {parts : List (ExtensionType × Bytes)} {type : ExtensionType}
    {data : Bytes} {hello : ClientHello} (listed : (type, data) ∈ parts)
    (isLaid : hello.extensions = (Extension.layout parts).1) :
    be16 type.asU16 ++ be16 data.length ++ data <:+: hello.serialize (Extension.layout parts).2 := by
  obtain ⟨ext, member, isType, -, isData⟩ := Extension.mem_layout listed
  have same : be16 type.asU16 ++ be16 data.length ++ data = ext.serialize (Extension.layout parts).2 := by
    unfold Extension.serialize
    rw [isType, isData]
  rw [same]
  exact ClientHello.extension_within (isLaid ▸ member)

/-- What a HelloRetryRequest asks for. -/
structure Retry where
  suite : Dtls13CipherSuite
  group : Option NamedGroup
  cookie : Option Bytes

/-- What a client does with hellos. -/
inductive HelloAct where
  /-- A HelloRetryRequest is followed. -/
  | retried (retry : Retry)
  /-- A ClientHello enters the transcript. -/
  | sent (message : Bytes)
  /-- A ServerHello is read: its suite, whether version, compression or suite are refused,
  and the group of its share when it is accepted. -/
  | read (suite : Dtls13CipherSuite) (refused : Bool) (accepted : Option NamedGroup)

namespace HelloAct

/-- The HelloRetryRequest that was followed last. -/
def track (retry : Option Retry) : HelloAct → Option Retry
  | .retried retry => some retry
  | _ => retry

/-- An extension with the cookie in a message. -/
def Echoes (cookie message : Bytes) : Prop :=
  be16 ExtensionType.cookie.asU16 ++ be16 cookie.length ++ cookie <:+: message

/-- A hello with a cookie among its parts. -/
theorem layout_echoes {parts : List (ExtensionType × Bytes)} {cookie : Bytes} {hello : ClientHello}
    (listed : (ExtensionType.cookie, cookie) ∈ parts)
    (isLaid : hello.extensions = (Extension.layout parts).1) :
    Echoes cookie (hello.serialize (Extension.layout parts).2) :=
  ClientHello.layout_within listed isLaid

/-- A hello fits the HelloRetryRequest before it: a ClientHello carries its cookie, and a
ServerHello that is accepted has its suite and its group. -/
def Consistent (retry : Option Retry) : HelloAct → Prop
  | .retried _ => True
  | .sent message => ∀ asked ∈ retry, ∀ cookie ∈ asked.cookie, Echoes cookie message
  | .read suite _ accepted => ∀ asked ∈ retry, ∀ group ∈ accepted,
      suite = asked.suite ∧ ∀ wanted ∈ asked.group, group = wanted

/-- A ServerHello that is not refused at once has the suite of the HelloRetryRequest before
it. -/
def SameSuite (retry : Option Retry) : HelloAct → Prop
  | .read suite refused _ => refused = false → ∀ asked ∈ retry, suite = asked.suite
  | _ => True

instance {cookie message : Bytes} : Decidable (Echoes cookie message) :=
  inferInstanceAs (Decidable (_ <:+: _))

instance {retry : Option Retry} : DecidablePred (Consistent retry)
  | .retried _ => inferInstanceAs (Decidable True)
  | .sent message => inferInstanceAs (Decidable (∀ asked ∈ retry, ∀ cookie ∈ asked.cookie, Echoes cookie message))
  | .read suite _ accepted => inferInstanceAs (Decidable (∀ asked ∈ retry, ∀ group ∈ accepted,
      suite = asked.suite ∧ ∀ wanted ∈ asked.group, group = wanted))

instance {retry : Option Retry} : DecidablePred (SameSuite retry)
  | .read suite refused _ =>
    inferInstanceAs (Decidable (refused = false → ∀ asked ∈ retry, suite = asked.suite))
  | .retried _ | .sent _ => inferInstanceAs (Decidable True)

end HelloAct

namespace Client

/-- The group that the extensions of a HelloRetryRequest select. -/
def retryGroup (buffer : Bytes) (extensions : List Extension) : Option NamedGroup :=
  ((extensions.filter fun ext => ext.extensionType = .keyShare).filterMap fun ext =>
    selectedGroup (ext.extensionData buffer)).getLast?

/-- The cookie in the extensions of a HelloRetryRequest. -/
def retryCookie (buffer : Bytes) (extensions : List Extension) : Option Bytes :=
  ((extensions.filter fun ext => ext.extensionType = .cookie).map fun ext =>
    ext.extensionData buffer).getLast?

/-- The ServerHello that is read next, if one is. -/
def nextServerHello (c : Client) : Option (ServerHello × Bytes) :=
  match value? (nextHandshake .serverHello) c.engine with
  | some (some (handshake, buffer)) =>
    match handshake.body with
    | .serverHello hello => some (hello, buffer)
    | _ => none
  | _ => none

/-- What reading a ServerHello does. -/
def readActs (c : Client) : List HelloAct :=
  match c.nextServerHello, value? awaitServerHello c with
  | some (hello, buffer), outcome =>
    let extensions := hello.extensions.getD []
    if hello.isHelloRetryRequest then
      if outcome = some .sendClientHello then
        [.retried ⟨hello.cipherSuite, retryGroup buffer extensions, retryCookie buffer extensions⟩]
      else []
    else
      [.read hello.cipherSuite (refuseServerHello c.engine hello).isSome
        (if outcome = some .awaitEncryptedExtensions then
          (readServerExtensions buffer extensions (false, none)).2.map Prod.fst
        else none)]
  | none, _ => []

/-- The ClientHello that enters the transcript. -/
def sentActs (c : Client) : List HelloAct :=
  let message := (finalState sendClientHello c).engine.transcript.drop c.engine.transcript.length
  if message.isEmpty then [] else [.sent message]

/-- What a round does with hellos. -/
def roundHellos (c : Client) : List HelloAct :=
  match c.state with
  | .sendClientHello => c.sentActs
  | .awaitServerHello => c.readActs
  | _ => []

/-- What a call does with hellos. -/
def hellos (c : Client) : Call → List HelloAct
  | .handlePacket packet =>
    following (withEngine (receivePacket packet)) (machine.rounds roundHellos 20) c
  | .handleTimeout now =>
    following (withEndpoint (Endpoint.handleTimeout now)) (machine.rounds roundHellos 20) c
  | _ => []

end Client

namespace Endpoint

variable {α : Type}

/-- Nothing of an engine tells whether the hello is a second one. -/
theorem withEngine_retry {program : EngineM α} : Along (Keeps helloRetry) (withEngine program) := by
  intro p
  unfold withEngine
  rw [post_zoom]
  exact post_state.mpr rfl

theorem modify_retry {f : Endpoint → Endpoint} (same : ∀ p, (f p).helloRetry = p.helloRetry) :
    Along (Keeps helloRetry) (modify f : EndpointM PUnit) :=
  along_modify same

theorem startExchange_retry {kx : SupportedKxGroup} : Along (Keeps helloRetry) (startExchange kx) := by
  refine along_get_bind fun p => ?_
  dsimp only
  rw [post_bind, post_set]
  exact along_liftCrypto.after rfl

theorem installHandshakeSecrets_retry {sharedSecret : Bytes} :
    Along (Keeps helloRetry) (installHandshakeSecrets sharedSecret) := by
  refine along_bind withEngine_retry fun secrets => ?_
  exact along_bind (modify_retry fun _ => rfl) fun _ => withEngine_retry

theorem installApplicationSecrets_retry : Along (Keeps helloRetry) installApplicationSecrets := by
  refine along_bind along_get fun p => along_bind along_orThrow fun _ => ?_
  exact along_bind withEngine_retry fun _ => withEngine_retry

theorem takeCertificates_retry {certificate : Certificate} {buffer : Bytes} :
    Along (Keeps helloRetry) (takeCertificates certificate buffer) := by
  refine along_bind (modify_retry fun _ => rfl) fun _ => along_bind (modify_retry fun _ => rfl) fun _ => ?_
  exact along_bind along_get fun _ => along_ite (fun _ => along_pure) fun _ => modify_retry fun _ => rfl

theorem checkCertificateVerify_retry {label : String} {missing : CertificateError}
    {transcript transcriptHash : Bytes} {signed : DigitallySigned} {buffer : Bytes} :
    Along (Keeps helloRetry)
      (checkCertificateVerify label missing transcript transcriptHash signed buffer) := by
  refine along_bind along_get fun p => ?_
  dsimp only
  split
  · exact along_throw
  · refine along_bind withEngine_retry fun _ => ?_
    exact along_bind (modify_retry fun _ => rfl) fun _ => withEngine_retry

theorem checkFinished_retry {failed : SecurityError} {transcript expected verifyData : Bytes} :
    Along (Keeps helloRetry) (checkFinished failed transcript expected verifyData) :=
  along_ite (fun _ => along_throw) fun _ =>
    along_bind (modify_retry fun _ => rfl) fun _ => withEngine_retry

theorem completeHandshake_retry : Along (Keeps helloRetry) completeHandshake := by
  refine along_bind (modify_retry fun _ => rfl) fun _ => along_bind ?_ fun _ => withEngine_retry
  refine along_bind along_get fun p => ?_
  split
  · exact along_pure
  · split
    · exact modify_retry fun _ => rfl
    · exact along_throw
    · exact along_pure

theorem onKeyUpdate_retry {handle : KeyUpdateRequest → EndpointM Unit}
    (handles : ∀ request, Along (Keeps helloRetry) (handle request)) :
    Along (Keeps helloRetry) (onKeyUpdate handle) := by
  refine along_bind withEngine_retry fun found => ?_
  cases found with
  | none => exact along_pure
  | some message =>
      dsimp only
      split
      · exact handles _
      · exact along_throw

theorem awaitApplicationData_retry : Along (Keeps helloRetry) awaitApplicationData := by
  have queued : Along (Keeps helloRetry) sendQueuedData := by
    refine along_get_bind fun p => ?_
    rw [post_bind, post_set]
    exact withEngine_retry.after rfl
  refine along_bind (along_bind withEngine_retry fun _ => along_bind along_get fun _ =>
    withEngine_retry) fun _ => along_bind queued fun _ => along_bind ?_ fun _ =>
      onKeyUpdate_retry fun _ => ?_
  · refine along_bind along_get fun p => along_ite (fun _ => ?_) fun _ => along_pure
    exact along_bind withEngine_retry fun _ => modify_retry fun _ => rfl
  · refine along_bind withEngine_retry fun _ => along_bind withEngine_retry fun _ => ?_
    exact along_bind (modify_retry fun _ => rfl) fun _ => withEngine_retry

theorem halfClosedLocal_retry : Along (Keeps helloRetry) halfClosedLocal :=
  along_bind (onKeyUpdate_retry fun _ => along_bind withEngine_retry fun _ => withEngine_retry) fun _ =>
    along_bind along_get fun _ => along_pure

theorem handleTimeout_retry {now : Instant} : Along (Keeps helloRetry) (handleTimeout now) := by
  refine along_bind (modify_retry fun _ => rfl) fun _ => along_bind ?_ fun _ => withEngine_retry
  refine along_bind along_get fun p => ?_
  split
  · exact along_pure
  · exact along_bind withEngine_retry fun _ => modify_retry fun _ => rfl

theorem pollOutput_retry {bufLen : Nat} : Along (Keeps helloRetry) (pollOutput bufLen) := by
  refine along_get_bind fun p => ?_
  split
  · rw [post_bind, post_set]
    exact intoOutput_readOnly.along.after rfl
  · exact withEngine_retry p

end Endpoint

namespace Client

/-- What a client keeps for and of a HelloRetryRequest. -/
structure Errand where
  helloRetry : Bool
  cookie : Option Bytes
  group : Option NamedGroup
  exchange : Option ActiveKeyExchange

/-- The errand of a client. -/
def errand (c : Client) : Errand :=
  ⟨c.endpoint.helloRetry, c.savedCookie, c.hrrSelectedGroup, c.activeKeyExchange⟩

section Handlers

variable {α : Type} {c : Client}

theorem withEndpoint_errand {program : EndpointM α} (along : Along (Keeps Endpoint.helloRetry) program) :
    Along (Keeps errand) (withEndpoint program) :=
  along_zoom along fun c p same => by
    have isSame : p.helloRetry = c.endpoint.helloRetry := same
    simp [Keeps, errand, isSame]

theorem withEngine_errand {program : EngineM α} : Along (Keeps errand) (withEngine program) :=
  withEndpoint_errand Endpoint.withEngine_retry

theorem modify_errand {f : Client → Client} (same : ∀ c, (f c).errand = c.errand) :
    Along (Keeps errand) (modify f : ClientM PUnit) :=
  along_modify same

theorem advance_errand {next : State} : Along (Keeps errand) (advance next) :=
  along_bind withEngine_errand fun _ => along_pure

theorem onHandshake_errand {wanted : MessageType} {stay : State} {handle : Body → Bytes → ClientM State}
    (handles : ∀ body buffer, Along (Keeps errand) (handle body buffer)) :
    Along (Keeps errand) (onHandshake wanted stay handle) := by
  refine along_bind withEngine_errand fun found => ?_
  cases found with
  | none => exact along_pure
  | some message => exact handles _ _

theorem readEncryptedExtensions_errand {buffer : Bytes} {extensions : List Extension} :
    Along (Keeps errand) (readEncryptedExtensions buffer extensions) := by
  induction extensions with
  | nil => exact along_pure
  | cons ext rest inductionHypothesis =>
      refine along_ite (fun _ => ?_) fun _ => inductionHypothesis
      split
      · exact along_throw
      · exact along_bind (withEndpoint_errand (Endpoint.modify_retry fun _ => rfl)) fun _ =>
          inductionHypothesis

theorem awaitEncryptedExtensions_errand : Along (Keeps errand) awaitEncryptedExtensions := by
  refine onHandshake_errand fun body buffer => ?_
  split
  · exact along_bind readEncryptedExtensions_errand fun _ => advance_errand
  · exact along_throw

theorem awaitCertificateRequest_errand : Along (Keeps errand) awaitCertificateRequest := by
  refine along_bind along_get fun c => along_ite (fun _ => along_pure) fun _ => ?_
  refine onHandshake_errand fun body buffer => ?_
  split
  · split
    · exact along_throw
    · exact along_bind (modify_errand fun _ => rfl) fun _ => advance_errand
  · exact along_throw

theorem awaitCertificate_errand : Along (Keeps errand) awaitCertificate := by
  refine onHandshake_errand fun body buffer => ?_
  split
  · refine along_ite (fun _ => along_throw) fun _ => along_ite (fun _ => along_throw) fun _ => ?_
    exact along_bind (withEndpoint_errand Endpoint.takeCertificates_retry) fun _ => advance_errand
  · exact along_throw

theorem awaitFinished_errand : Along (Keeps errand) awaitFinished := by
  refine along_bind along_get fun c => along_bind along_get fun c => ?_
  refine along_bind along_orThrow fun _ => along_bind withEngine_errand fun _ => ?_
  refine onHandshake_errand fun body buffer => ?_
  split
  · refine along_bind (withEndpoint_errand Endpoint.checkFinished_retry) fun _ => ?_
    refine along_bind (withEndpoint_errand Endpoint.installApplicationSecrets_retry) fun _ => ?_
    exact along_bind along_get fun _ => along_pure
  · exact along_throw

theorem sendCertificate_errand : Along (Keeps errand) sendCertificate := by
  refine along_bind withEngine_errand fun _ => along_bind along_get fun c => ?_
  refine along_bind along_get fun c => along_ite (fun _ => ?_) fun _ => ?_
  · exact along_bind withEngine_errand fun _ => along_pure
  · exact along_bind withEngine_errand fun _ => along_pure

theorem sendFinished_errand : Along (Keeps errand) sendFinished := by
  refine along_bind along_get fun c => along_bind withEngine_errand fun _ => ?_
  refine along_bind along_get fun c => along_bind along_orThrow fun _ => ?_
  refine along_bind withEngine_errand fun _ => ?_
  exact along_bind (withEndpoint_errand Endpoint.completeHandshake_retry) fun _ => along_pure

/-- The handlers that deal with no hello keep the errand. -/
theorem handlers_errand {state : State} (notSend : state ≠ .sendClientHello)
    (notAwait : state ≠ .awaitServerHello) : Along (Keeps errand) state.makeProgress := by
  cases state with
  | sendClientHello => exact absurd rfl notSend
  | awaitServerHello => exact absurd rfl notAwait
  | awaitEncryptedExtensions => exact awaitEncryptedExtensions_errand
  | awaitCertificateRequest => exact awaitCertificateRequest_errand
  | awaitCertificate => exact awaitCertificate_errand
  | awaitCertificateVerify =>
      refine along_bind along_get fun c => along_bind withEngine_errand fun _ => ?_
      refine onHandshake_errand fun body buffer => ?_
      split
      · exact along_bind (withEndpoint_errand Endpoint.checkCertificateVerify_retry) fun _ => along_pure
      · exact along_throw
  | awaitFinished => exact awaitFinished_errand
  | sendCertificate => exact sendCertificate_errand
  | sendCertificateVerify => exact along_bind withEngine_errand fun _ => along_pure
  | sendFinished => exact sendFinished_errand
  | awaitApplicationData =>
      exact along_bind (withEndpoint_errand Endpoint.awaitApplicationData_retry) fun _ => along_pure
  | halfClosedLocal =>
      exact along_bind (withEndpoint_errand Endpoint.halfClosedLocal_retry) fun _ => along_pure
  | closed => exact along_pure

theorem sendApplicationData_errand {data : Bytes} : Along (Keeps errand) (sendApplicationData data) := by
  refine along_bind along_get fun c => along_ite (fun _ => along_throw) fun _ => ?_
  refine along_ite (fun _ => ?_) fun _ => ?_
  · exact withEndpoint_errand (Endpoint.modify_retry fun _ => rfl)
  · exact withEndpoint_errand (along_bind along_get fun _ => Endpoint.withEngine_retry)

theorem close_errand : Along (Keeps errand) close := by
  refine along_bind along_get fun c => along_ite (fun _ => along_pure) fun _ => ?_
  refine along_ite (fun _ => ?_) fun _ => ?_
  · exact along_bind withEngine_errand fun _ => modify_errand fun _ => rfl
  · refine along_bind (withEndpoint_errand ?_) fun _ => modify_errand fun _ => rfl
    exact along_bind along_get fun _ =>
      along_bind Endpoint.withEngine_retry fun _ => Endpoint.withEngine_retry

end Handlers

section Hellos

variable {c : Client} {e : Engine} {buffer : Bytes} {extensions : List Extension}

/-- The hello carries the cookie that is kept. -/
theorem createClientHello_echoes {random : Random} {group : NamedGroup} {publicKey : Bytes}
    {cookie : Option Bytes} :
    Post (createClientHello random group publicKey cookie) e
      (fun body _ => ∀ kept, cookie = some kept →
        HelloAct.Echoes kept (transcriptMessage .clientHello body)) fun _ _ => True := by
  unfold createClientHello
  rw [post_bind, post_get]
  dsimp only
  rw [post_bind]
  refine (supportedGroups_readOnly e).mono (fun groups e' _ => ?_) fun _ _ _ => trivial
  rintro kept rfl
  have listed : (ExtensionType.cookie, kept) ∈ clientHelloExtensions groups group publicKey (some kept) := by
    simp [clientHelloExtensions]
  exact (HelloAct.layout_echoes (List.mem_append_left _ listed) rfl).trans
    (List.suffix_append _ _).isInfix

theorem getLast?_cons_or {β : Type} {first : β} {rest : List β} :
    (first :: rest).getLast? = rest.getLast?.or (some first) := by
  rw [List.getLast?_cons]
  cases rest.getLast? <;> rfl

theorem retryGroup_cons {ext : Extension} :
    retryGroup buffer (ext :: extensions) = (retryGroup buffer extensions).or
      (if ext.extensionType = .keyShare then selectedGroup (ext.extensionData buffer) else none) := by
  by_cases isShare : ext.extensionType = .keyShare
  · cases group : selectedGroup (ext.extensionData buffer) with
    | none => simp [retryGroup, isShare, group]
    | some group' => simp [retryGroup, isShare, group, getLast?_cons_or]
  · simp [retryGroup, isShare]

theorem retryCookie_cons {ext : Extension} :
    retryCookie buffer (ext :: extensions) = (retryCookie buffer extensions).or
      (if ext.extensionType = .cookie then some (ext.extensionData buffer) else none) := by
  by_cases isCookie : ext.extensionType = .cookie
  · simp [retryCookie, isCookie, getLast?_cons_or]
  · simp [retryCookie, isCookie]

/-- What is kept of the extensions of a HelloRetryRequest. -/
theorem readRetryExtensions_keeps :
    Post (readRetryExtensions buffer extensions) c
      (fun _ c' => c'.endpoint = c.endpoint ∧
        c'.savedCookie = (retryCookie buffer extensions).or c.savedCookie ∧
        c'.hrrSelectedGroup = (retryGroup buffer extensions).or c.hrrSelectedGroup) fun _ _ => True := by
  induction extensions generalizing c with
  | nil => exact ⟨rfl, rfl, rfl⟩
  | cons ext rest inductionHypothesis =>
      rw [retryCookie_cons, retryGroup_cons]
      unfold readRetryExtensions
      dsimp only
      rw [post_ite]
      refine ⟨fun isShare => ?_, fun notShare => ?_⟩
      · have notCookie : ext.extensionType ≠ .cookie := by
          rw [isShare]
          decide
        rw [post_bind, post_modify, if_pos isShare, if_neg notCookie, Option.or_none, Option.or_assoc]
        exact inductionHypothesis
      · rw [post_ite, if_neg notShare, Option.or_none]
        refine ⟨fun isCookie => ?_, fun notCookie => ?_⟩
        · split
          · trivial
          · rw [post_bind, post_modify, if_pos isCookie, Option.or_assoc]
            exact inductionHypothesis
        · rw [if_neg notCookie, Option.or_none]
          exact inductionHypothesis

/-- A message with the cookie that a client keeps. -/
def Echoing (c : Client) (message : Bytes) : Prop :=
  ∀ cookie, c.savedCookie = some cookie → HelloAct.Echoes cookie message

/-- What sending a hello leaves. -/
structure Posted (c c' : Client) : Prop where
  retry : c'.endpoint.helloRetry = c.endpoint.helloRetry
  cookie : c'.savedCookie = c.savedCookie
  group : c'.hrrSelectedGroup = c.hrrSelectedGroup
  exchange : c'.activeKeyExchange = c.activeKeyExchange ∨
    ∃ kx ∈ c.engine.config.kxGroups, ∃ entropy exchange, kx.startExchange entropy = .ok exchange ∧
      c'.activeKeyExchange = some exchange ∧ ∀ wanted, c.hrrSelectedGroup = some wanted → kx.name = wanted
  message : Server.Adds (Echoing c) c.engine c'.engine

theorem keyShareGroup_wanted :
    Post keyShareGroup c
      (fun group c' => c' = c ∧ ∀ wanted, c.hrrSelectedGroup = some wanted → group = wanted)
      fun _ c' => c' = c := by
  unfold keyShareGroup
  rw [post_bind, post_get]
  split
  · rename_i group isSome
    refine ⟨rfl, fun wanted isWanted => ?_⟩
    exact Option.some.inj (isSome.symm.trans isWanted)
  · rename_i isNone
    rw [post_orThrow]
    refine ⟨fun group _ => ⟨rfl, fun wanted isWanted => ?_⟩, fun _ => rfl⟩
    rw [isNone] at isWanted
    cases isWanted

/-- The hello is for the group and with the cookie that are kept. -/
theorem sendClientHello_posted :
    Post sendClientHello c (fun next c' => next = .awaitServerHello ∧ Posted c c')
      fun _ c' => Posted c c' := by
  unfold sendClientHello
  rw [post_bind, post_get, post_bind, post_orThrow]
  refine ⟨fun random _ => ?_, fun _ => ⟨rfl, rfl, rfl, .inl rfl, .inl rfl⟩⟩
  rw [post_bind, withEngine_post, post_modify]
  have begun : Posted c { c with endpoint := { c.endpoint with engine := c.engine.flightBegin } } :=
    ⟨rfl, rfl, rfl, .inl rfl, .inl rfl⟩
  rw [post_bind]
  refine keyShareGroup_wanted.mono (fun group c₁ named => ?_) fun _ c₁ same => same ▸ begun
  obtain ⟨rfl, named⟩ := named
  rw [post_bind, post_get, post_bind, post_orThrow]
  refine ⟨fun kx found => ?_, fun _ => begun⟩
  have member : kx ∈ c.engine.config.kxGroups := List.mem_of_find?_eq_some found
  have isNamed : kx.name = group := by simpa using List.find?_some found
  unfold withEndpoint Endpoint.startExchange
  rw [post_bind, post_zoom, post_bind, post_get]
  dsimp only
  rw [post_bind, post_set, post_liftCrypto]
  refine ⟨fun exchange started => ?_, fun _ _ => ⟨rfl, rfl, rfl, .inl rfl, .inl rfl⟩⟩
  rw [post_bind, post_modify, post_bind, post_get]
  dsimp only
  rw [post_bind, withEngine_post]
  have adds : Post (createHandshake .clientHello
      (createClientHello random group exchange.pubKey c.savedCookie)) c.engine.flightBegin
      (fun _ e' => Server.Adds (Echoing c) c.engine e') fun _ e' => Server.Adds (Echoing c) c.engine e' :=
    @Server.createHandshake_adds _ (Echoing c) _ _ createClientHello_readOnly createClientHello_echoes
  have exchanged : ∃ kx ∈ c.engine.config.kxGroups, ∃ entropy exchange',
      kx.startExchange entropy = .ok exchange' ∧ some exchange = some exchange' ∧
        ∀ wanted, c.hrrSelectedGroup = some wanted → kx.name = wanted :=
    ⟨kx, member, _, exchange, started, rfl, fun wanted isSome => isNamed.trans (named wanted isSome)⟩
  exact adds.mono (fun _ e' added => ⟨rfl, rfl, rfl, rfl, .inr exchanged, added⟩) fun _ e' added =>
    ⟨rfl, rfl, rfl, .inr exchanged, added⟩

/-- What an HelloRetryRequest that is followed leaves of an errand. -/
def Errand.retry (errand : Errand) (buffer : Bytes) (extensions : List Extension) : Errand :=
  ⟨true, (retryCookie buffer extensions).or errand.cookie, (retryGroup buffer extensions).or errand.group, none⟩

/-- A HelloRetryRequest is followed once. -/
theorem handleHelloRetryRequest_errand {lengthBefore : Nat} {hello : ServerHello} :
    Post (handleHelloRetryRequest lengthBefore hello buffer) c
      (fun next c' => (c'.errand = c.errand ∧ next = .awaitServerHello) ∨
        (c.endpoint.helloRetry = false ∧ c'.errand = c.errand.retry buffer (hello.extensions.getD [])))
      fun _ c' => c.endpoint.helloRetry → c'.errand = c.errand := by
  unfold handleHelloRetryRequest
  rw [post_bind, post_get, post_ite]
  refine ⟨fun isSecond => ?_, fun isFirst => ?_⟩
  · rw [post_bind]
    exact (withEngine_errand c).mono (fun _ c' same => .inl ⟨same, rfl⟩) fun _ c' same _ => same
  · dsimp only
    rw [post_bind]
    refine readRetryExtensions_keeps.mono (fun _ c₁ kept => ?_) fun _ _ _ isSecond => absurd isSecond isFirst
    obtain ⟨endpoint, cookie, group⟩ := kept
    have first : ∀ {P : Prop}, c.endpoint.helloRetry → P := fun isSecond => absurd isSecond isFirst
    rw [post_bind, post_get, post_ite]
    refine ⟨fun _ => first, fun _ => ?_⟩
    rw [post_bind]
    refine (withEngine_errand c₁).mono (fun _ c₂ same₂ => ?_) fun _ _ _ => first
    rw [post_ite]
    refine ⟨fun _ => first, fun _ => ?_⟩
    rw [post_bind]
    refine (withEngine_errand c₂).mono (fun _ c₃ same₃ => ?_) fun _ _ _ => first
    rw [post_bind]
    refine (withEngine_errand c₃).mono (fun _ c₄ same₄ => ?_) fun _ _ _ => first
    rw [post_bind]
    refine (withEngine_errand c₄).mono (fun _ c₅ same₅ => ?_) fun _ _ _ => first
    rw [post_bind, post_modify, post_pure]
    have same : c₅.errand = c₁.errand := same₅.trans (same₄.trans (same₃.trans same₂))
    have isCookie : c₅.savedCookie = c₁.savedCookie := congrArg Errand.cookie same
    have isGroup : c₅.hrrSelectedGroup = c₁.hrrSelectedGroup := congrArg Errand.group same
    refine .inr ⟨by simpa using isFirst, ?_⟩
    simp [errand, Errand.retry, isCookie, isGroup, cookie, group]

/-- The errand is the same, or its exchange is used up. -/
def Spends (c c' : Client) : Prop :=
  c'.errand = c.errand ∨ c'.errand = { c.errand with exchange := none }

theorem Spends.of_same {c' : Client} (same : c'.errand = c.errand) : Spends c c' := .inl same

instance : Std.Refl Spends := ⟨fun _ => .inl rfl⟩

instance : IsTrans Client Spends := by
  refine ⟨fun _ _ _ first second => ?_⟩
  rcases first with first | first <;> rcases second with second | second
  · exact .inl (second.trans first)
  · exact .inr (second.trans (by rw [first]))
  · exact .inr (second.trans first)
  · exact .inr (second.trans (by rw [first]))

theorem withEngine_spends {α : Type} {program : EngineM α} : Along Spends (withEngine program) :=
  withEngine_errand.mono fun _ _ same => .inl same

/-- An exchange that is completed was for the group of the share. -/
theorem completeExchange_spends {group : NamedGroup} {publicKey : Bytes} :
    Post (completeExchange group publicKey) c
      (fun _ c' => Spends c c' ∧ ∃ exchange, c.activeKeyExchange = some exchange ∧ exchange.group = group)
      fun _ c' => Spends c c' := by
  unfold completeExchange
  rw [post_bind, post_get, post_bind, post_orThrow]
  refine ⟨fun exchange isSome => ?_, fun _ => .inl rfl⟩
  rw [post_bind, post_set, post_ite]
  refine ⟨fun _ => .inr rfl, fun same => ?_⟩
  rw [post_liftCrypto]
  exact ⟨fun _ _ => ⟨.inr rfl, exchange, isSome, not_not.mp same⟩, fun _ _ => .inr rfl⟩

/-- A ServerHello that is accepted has passed the checks and has a share for the exchange. -/
def Accepts (c : Client) (hello : ServerHello) (buffer : Bytes) : Prop :=
  refuseServerHello c.engine hello = none ∧ ∃ exchange, c.activeKeyExchange = some exchange ∧
    (readServerExtensions buffer (hello.extensions.getD []) (false, none)).2.map Prod.fst =
      some exchange.group

theorem handleServerHello_spends {hello : ServerHello} :
    Post (handleServerHello hello buffer) c (fun _ c' => Spends c c' ∧ Accepts c hello buffer)
      fun _ c' => Spends c c' := by
  unfold handleServerHello
  rw [post_bind, post_get]
  split
  · exact .inl rfl
  · rename_i passes
    rw [post_bind]
    refine (withEngine_errand c).mono (fun _ c₁ same₁ => ?_) fun _ _ same => .inl same
    rw [post_bind, post_modify]
    have same₁ : c₁.errand = c.errand := same₁
    split
    · exact .inl same₁
    · rename_i extensions isSome
      split
      · exact .inl same₁
      · exact .inl same₁
      · rename_i group publicKey isRead
        have settled : ∀ {c' : Client}, Spends { c₁ with sessionId := some hello.legacySessionId } c' → Spends c c' :=
          fun later => IsTrans.trans c c₁ _ (.inl same₁) later
        rw [post_bind]
        refine completeExchange_spends.mono (fun secret c₂ spent => ?_) fun _ _ spent => settled spent
        obtain ⟨spent, exchange, isActive, isGroup⟩ := spent
        have isActive : c.activeKeyExchange = some exchange := (congrArg Errand.exchange same₁).symm.trans isActive
        have accepts : Accepts c hello buffer := by
          refine ⟨passes, exchange, isActive, ?_⟩
          rw [isSome, Option.getD_some, isRead, isGroup]
          rfl
        have rest : Along Spends (do
            withEndpoint (Endpoint.installHandshakeSecrets secret)
            withEngine enablePeerEncryption
            advance .awaitEncryptedExtensions) := by
          refine along_bind ?_ fun _ => along_bind withEngine_spends fun _ => ?_
          · exact (withEndpoint_errand Endpoint.installHandshakeSecrets_retry).mono fun _ _ same => .inl same
          · exact advance_errand.mono fun _ _ same => .inl same
        exact (rest c₂).mono (fun _ c₃ later => ⟨IsTrans.trans c c₂ c₃ (settled spent) later, accepts⟩)
          fun _ c₃ later => IsTrans.trans c c₂ c₃ (settled spent) later

theorem Accepts.congr {c' : Client} {hello : ServerHello} (accepts : Accepts c' hello buffer)
    (config : c'.engine.config = c.engine.config) (exchange : c'.activeKeyExchange = c.activeKeyExchange) :
    Accepts c hello buffer := by
  have allowed : c'.engine.isCipherSuiteAllowed = c.engine.isCipherSuiteAllowed := by
    funext suite
    unfold Engine.isCipherSuiteAllowed
    rw [config]
  unfold Accepts refuseServerHello at accepts ⊢
  rw [← allowed, ← exchange]
  exact accepts

/-- What reading a ServerHello leaves, by the state that comes next. There is none behind an
error. -/
def HelloRead (c : Client) (next : Option State) (c' : Client) : Prop :=
  match c.nextServerHello with
  | none => c'.errand = c.errand
  | some (hello, buffer) =>
    if hello.isHelloRetryRequest then
      (c'.errand = c.errand ∧ next ≠ some .sendClientHello) ∨
        (c.endpoint.helloRetry = false ∧
          (next = none ∨ c'.errand = c.errand.retry buffer (hello.extensions.getD [])))
    else Spends c c' ∧ (next ≠ none → Accepts c hello buffer)

theorem awaitServerHello_reads :
    Post awaitServerHello c (fun next c' => HelloRead c (some next) c')
      fun _ c' => HelloRead c none c' := by
  have framed : Post (nextHandshake .serverHello) c.engine (fun _ e => e.config = c.engine.config)
      fun _ _ => True :=
    (nextHandshakeWithOptions_frame c.engine).mono (fun _ _ frame => congrArg Ground.config frame.ground)
      fun _ _ _ => trivial
  unfold awaitServerHello onHandshake
  rw [post_bind, post_get]
  dsimp only
  rw [post_bind, withEngine_post]
  refine (post_self.and framed).mono (fun found e both => ?_) fun fault e both => ?_
  · obtain ⟨ran, config⟩ := both
    have isNext : value? (nextHandshake .serverHello) c.engine = some found := value_of_ok ran
    cases found with
    | none =>
        have nothing : c.nextServerHello = none := by
          unfold nextServerHello
          rw [isNext]
        rw [post_pure]
        unfold HelloRead
        rw [nothing]
        rfl
    | some message =>
        obtain ⟨handshake, buffer⟩ := message
        dsimp only
        split
        · rename_i hello isHello
          have isRead : c.nextServerHello = some (hello, buffer) := by
            unfold nextServerHello
            rw [isNext]
            dsimp only
            rw [isHello]
          unfold HelloRead
          rw [isRead]
          dsimp only
          rw [post_ite]
          refine ⟨fun isRetry => ?_, fun isHello => ?_⟩
          · refine handleHelloRetryRequest_errand.mono (fun next c' moved => ?_) fun _ c' same => ?_
            · rw [if_pos isRetry]
              rcases moved with ⟨same, rfl⟩ | ⟨first, followed⟩
              · exact .inl ⟨same, by simp⟩
              · exact .inr ⟨first, .inr followed⟩
            · rw [if_pos isRetry]
              cases first : c.endpoint.helloRetry with
              | true => exact .inl ⟨same first, by simp⟩
              | false => exact .inr ⟨rfl, .inl rfl⟩
          · refine handleServerHello_spends.mono (fun next c' spent => ?_) fun _ c' spent => ?_
            · rw [if_neg isHello]
              have accepts : Accepts { c with endpoint := { c.endpoint with engine := e } } hello buffer :=
                spent.2
              exact ⟨spent.1, fun _ => accepts.congr config rfl⟩
            · rw [if_neg isHello]
              exact ⟨spent, fun some => absurd rfl some⟩
        · rename_i other
          have nothing : c.nextServerHello = none := by
            unfold nextServerHello
            rw [isNext]
            dsimp only
            split
            · rename_i hello isHello
              exact absurd isHello (other hello)
            · rfl
          unfold HelloRead
          rw [nothing]
          rfl
  · have nothing : c.nextServerHello = none := by
      unfold nextServerHello value?
      rw [both.1]
    unfold HelloRead
    rw [nothing]
    rfl

end Hellos

section Runs

variable {config : Config} {c c' : Client} {g : Option Retry}

/-- What a client keeps of the HelloRetryRequest that it has followed. -/
structure Retried (config : Config) (g : Option Retry) (c : Client) : Prop where
  config : c.engine.config = config
  flagged : ∀ asked, g = some asked → c.endpoint.helloRetry = true
  cookie : ∀ asked, g = some asked → ∀ cookie, asked.cookie = some cookie → c.savedCookie = some cookie
  group : ∀ asked, g = some asked → ∀ wanted, asked.group = some wanted → c.hrrSelectedGroup = some wanted
  exchange : ∀ asked, g = some asked → ∀ wanted, asked.group = some wanted →
    ∀ exchange, c.activeKeyExchange = some exchange → exchange.group = wanted

/-- The settings of a client stay, whatever it handles. -/
theorem handlers_config (state : State) : Along (Keeps fun c : Client => c.engine.config) state.makeProgress :=
  (handlers_conduct (@sizes_conducts 0).toConduct state).mono fun _ _ conducted => conducted.2.1

theorem Retried.of_errand (retried : Retried config g c) (same : c'.errand = c.errand)
    (isConfig : c'.engine.config = c.engine.config) : Retried config g c' := by
  have isRetry : c'.endpoint.helloRetry = c.endpoint.helloRetry := congrArg Errand.helloRetry same
  have isCookie : c'.savedCookie = c.savedCookie := congrArg Errand.cookie same
  have isGroup : c'.hrrSelectedGroup = c.hrrSelectedGroup := congrArg Errand.group same
  have isExchange : c'.activeKeyExchange = c.activeKeyExchange := congrArg Errand.exchange same
  refine ⟨isConfig.trans retried.config, ?_, ?_, ?_, ?_⟩
  · rw [isRetry]
    exact retried.flagged
  · rw [isCookie]
    exact retried.cookie
  · rw [isGroup]
    exact retried.group
  · rw [isExchange]
    exact retried.exchange

theorem Retried.spends (retried : Retried config g c) (spent : Spends c c')
    (isConfig : c'.engine.config = c.engine.config) : Retried config g c' := by
  rcases spent with same | used
  · exact retried.of_errand same isConfig
  · have still : Retried config g { c with activeKeyExchange := none } :=
      ⟨retried.config, retried.flagged, retried.cookie, retried.group, fun _ _ _ _ _ isSome => nomatch isSome⟩
    exact still.of_errand used isConfig

/-- A HelloRetryRequest has just been followed. -/
theorem Retried.followed {errand : Errand} {suite : Dtls13CipherSuite} {buffer : Bytes}
    {extensions : List Extension} (isConfig : c'.engine.config = config)
    (isErrand : c'.errand = errand.retry buffer extensions) :
    Retried config (some ⟨suite, retryGroup buffer extensions, retryCookie buffer extensions⟩) c' := by
  have isCookie : c'.savedCookie = (retryCookie buffer extensions).or errand.cookie :=
    congrArg Errand.cookie isErrand
  have isGroup : c'.hrrSelectedGroup = (retryGroup buffer extensions).or errand.group :=
    congrArg Errand.group isErrand
  have isExchange : c'.activeKeyExchange = none := congrArg Errand.exchange isErrand
  refine ⟨isConfig, fun _ _ => congrArg Errand.helloRetry isErrand, ?_, ?_, ?_⟩
  · rintro _ ⟨⟩ cookie kept
    rw [isCookie, show retryCookie buffer extensions = some cookie from kept]
    rfl
  · rintro _ ⟨⟩ wanted selected
    rw [isGroup, show retryGroup buffer extensions = some wanted from selected]
    rfl
  · intro _ _ _ _ exchange isSome
    rw [isExchange] at isSome
    cases isSome

/-- The act of a hello that is sent. -/
theorem sentActs_posted (retried : Retried config g c) (posted : Posted c (finalState sendClientHello c)) :
    Judged (fun g act => act.SameSuite g → act.Consistent g) HelloAct.track g c.sentActs ∧
      c.sentActs.foldl HelloAct.track g = g := by
  unfold sentActs
  dsimp only
  split
  · exact ⟨trivial, rfl⟩
  · rename_i filled
    refine ⟨⟨fun _ asked isAsked cookie isCookie => ?_, trivial⟩, rfl⟩
    rcases posted.message with same | ⟨message, echoing, isAdded⟩
    · rw [same] at filled
      simp at filled
    · rw [isAdded, List.drop_left]
      exact echoing cookie (retried.cookie asked isAsked cookie isCookie)

theorem Retried.posted (named : config.Named) (retried : Retried config g c) (posted : Posted c c')
    (isConfig : c'.engine.config = c.engine.config) : Retried config g c' := by
  refine ⟨isConfig.trans retried.config, ?_, ?_, ?_, ?_⟩
  · rw [posted.retry]
    exact retried.flagged
  · rw [posted.cookie]
    exact retried.cookie
  · rw [posted.group]
    exact retried.group
  · intro asked isAsked wanted isWanted exchange isSome
    rcases posted.exchange with same | ⟨kx, member, entropy, exchange', started, isActive, isNamed⟩
    · exact retried.exchange asked isAsked wanted isWanted exchange (same ▸ isSome)
    · cases isActive.symm.trans isSome
      rw [named kx (retried.config ▸ member) entropy _ started]
      exact isNamed wanted (retried.group asked isAsked wanted isWanted)

/-- The act of a hello that is read. -/
theorem readActs_read {next : Option State} (retried : Retried config g c)
    (isNext : value? awaitServerHello c = next) (read : HelloRead c next c')
    (isConfig : c'.engine.config = c.engine.config) :
    Judged (fun g act => act.SameSuite g → act.Consistent g) HelloAct.track g c.readActs ∧
      Retried config (c.readActs.foldl HelloAct.track g) c' := by
  unfold HelloRead at read
  unfold readActs
  rw [isNext]
  cases isRead : c.nextServerHello with
  | none =>
      rw [isRead] at read
      exact ⟨trivial, retried.of_errand read isConfig⟩
  | some message =>
      obtain ⟨hello, buffer⟩ := message
      rw [isRead] at read
      dsimp only at read ⊢
      by_cases isRetry : hello.isHelloRetryRequest
      · rw [if_pos isRetry] at read ⊢
        rcases read with ⟨same, stays⟩ | ⟨first, moved⟩
        · rw [if_neg stays]
          exact ⟨trivial, retried.of_errand same isConfig⟩
        · have fresh : g = none := by
            cases g with
            | none => rfl
            | some asked =>
                have := retried.flagged asked rfl
                rw [first] at this
                cases this
          split
          · rename_i followed
            have isErrand := moved.resolve_left (by rw [followed]; simp)
            exact ⟨⟨fun _ => trivial, trivial⟩, .followed (isConfig.trans retried.config) isErrand⟩
          · subst fresh
            exact ⟨trivial, isConfig.trans retried.config, nofun, nofun, nofun, nofun⟩
      · rw [if_neg isRetry] at read ⊢
        obtain ⟨spent, accepts⟩ := read
        refine ⟨⟨fun sameSuite asked isAsked group isGroup => ?_, trivial⟩, retried.spends spent isConfig⟩
        split at isGroup
        · rename_i accepted
          obtain ⟨passes, exchange, isActive, isShare⟩ := accepts (by rw [accepted]; simp)
          refine ⟨sameSuite (by rw [passes]; rfl) asked isAsked, fun wanted isWanted => ?_⟩
          rw [← retried.exchange asked isAsked wanted isWanted exchange isActive]
          exact Option.some.inj (isGroup.symm.trans isShare)
        · cases isGroup

theorem awaitServerHello_retried (retried : Retried config g c) :
    Judged (fun g act => act.SameSuite g → act.Consistent g) HelloAct.track g c.readActs ∧
      Post awaitServerHello c (fun _ c' => Retried config (c.readActs.foldl HelloAct.track g) c')
        fun _ c' => Retried config (c.readActs.foldl HelloAct.track g) c' := by
  have settings : Post awaitServerHello c (fun _ c' => c'.engine.config = c.engine.config)
      fun _ c' => c'.engine.config = c.engine.config := handlers_config .awaitServerHello c
  have read := awaitServerHello_reads.and settings
  unfold Post at read ⊢
  cases outcome : awaitServerHello c with
  | ok next c' =>
      rw [outcome] at read
      exact readActs_read retried (value_of_ok outcome) read.1 read.2
  | error fault c' =>
      rw [outcome] at read
      have isNext : value? awaitServerHello c = none := by
        unfold value?
        rw [outcome]
      exact readActs_read retried isNext read.1 read.2

/-- One round: hellos after a HelloRetryRequest that has their suite fit it. -/
theorem round_retried (named : config.Named) (retried : Retried config g c) :
    Judged (fun g act => act.SameSuite g → act.Consistent g) HelloAct.track g c.roundHellos ∧
      Post c.state.makeProgress c
        (fun next c' => if next = c.state then Retried config (c.roundHellos.foldl HelloAct.track g) c'
          else Retried config (c.roundHellos.foldl HelloAct.track g) { c' with state := next })
        fun _ c' => Retried config (c.roundHellos.foldl HelloAct.track g) c' := by
  have entered : ∀ {g : Option Retry} {state next : State} {c' : Client}, Retried config g c' →
      if next = state then Retried config g c' else Retried config g { c' with state := next } := by
    intro g state next c' kept
    split
    · exact kept
    · exact kept.of_errand rfl rfl
  have settings := handlers_config c.state c
  unfold roundHellos
  split
  · rename_i isState
    rw [isState] at settings ⊢
    have both : Post sendClientHello c
        (fun _ c' => Posted c c' ∧ c'.engine.config = c.engine.config)
        fun _ c' => Posted c c' ∧ c'.engine.config = c.engine.config :=
      (sendClientHello_posted.and settings).mono (fun _ _ both => ⟨both.1.2, both.2⟩) fun _ _ both => both
    obtain ⟨judged, same⟩ := sentActs_posted retried (post_state.mp both).1
    rw [same]
    exact ⟨judged, both.mono (fun _ _ both => entered (retried.posted named both.1 both.2)) fun _ _ both =>
      retried.posted named both.1 both.2⟩
  · rename_i isState
    rw [isState]
    obtain ⟨judged, read⟩ := awaitServerHello_retried retried
    exact ⟨judged, read.mono (fun _ _ kept => entered kept) fun _ _ kept => kept⟩
  · rename_i notSend notAwait
    refine ⟨trivial, ?_⟩
    exact ((handlers_errand notSend notAwait c).and settings).mono
      (fun _ _ both => entered (retried.of_errand both.1 both.2)) fun _ _ both =>
        retried.of_errand both.1 both.2

theorem makeProgress_retried (named : config.Named) (retried : Retried config g c) :
    Judged (fun g act => act.SameSuite g → act.Consistent g) HelloAct.track g
        (machine.rounds roundHellos 20 c) ∧
      Retried config ((machine.rounds roundHellos 20 c).foldl HelloAct.track g) (finalState makeProgress c) := by
  unfold makeProgress
  rw [progressLoop_machine]
  exact machine.loop_judged (fun _ _ kept => kept) (fun _ _ kept => round_retried named kept) retried

theorem Retried.after {α : Type} {program : ClientM α} (retried : Retried config g c)
    (keeps : Along (Keeps errand) program) (settings : Along (Keeps fun c : Client => c.engine.config) program) :
    Post program c (fun _ c' => Retried config g c') fun _ c' => Retried config g c' :=
  ((keeps c).and (settings c)).mono (fun _ _ both => retried.of_errand both.1 both.2) fun _ _ both =>
    retried.of_errand both.1 both.2

/-- A call. -/
theorem exec_retried {call : Call} (named : config.Named) (retried : Retried config g c) :
    Judged (fun g act => act.SameSuite g → act.Consistent g) HelloAct.track g (c.hellos call) ∧
      Retried config ((c.hellos call).foldl HelloAct.track g) (c.exec call) := by
  have plain : Along (Keeps errand) call.program → Retried config g (c.exec call) := fun keeps =>
    retried.of_errand (keeps.finalState c) (@exec_sizes 0 c call).1
  cases call with
  | handlePacket packet =>
      have received : Along (Keeps fun c : Client => c.engine.config) (withEngine (receivePacket packet)) :=
        (withEngine_conduct (@receivePacket_sizes 0 packet)).mono fun _ _ conducted => conducted.2.1
      show _ ∧ Retried config _ (finalState (publicResult _) c)
      rw [finalState_publicResult]
      exact judged_following makeProgress (retried.after withEngine_errand received) fun _ kept =>
        makeProgress_retried named kept
  | handleTimeout now =>
      have ticked : Along (Keeps fun c : Client => c.engine.config)
          (withEndpoint (Endpoint.handleTimeout now)) :=
        along_zoom (Endpoint.handleTimeout_conduct (@handleTimeout_sizes 0) fun _ _ => .of_same rfl rfl rfl)
          fun _ _ moved => moved.1
      refine judged_following (publicResult makeProgress)
        (retried.after (withEndpoint_errand Endpoint.handleTimeout_retry) ticked) fun c' kept => ?_
      rw [finalState_publicResult]
      exact makeProgress_retried named kept
  | pollOutput bufLen =>
      exact ⟨trivial, plain (along_bind (withEndpoint_errand Endpoint.pollOutput_retry) fun _ => along_pure)⟩
  | sendApplicationData data => exact ⟨trivial, plain sendApplicationData_errand⟩
  | close => exact ⟨trivial, plain close_errand⟩

/-- In every run the hellos fit the HelloRetryRequest before them, one by one, if their suite
is the same. -/
theorem run_retried {start : Client} (named : start.engine.config.Named) (calls : List Call) :
    Judged (fun g act => act.SameSuite g → act.Consistent g) HelloAct.track none
      (traced exec hellos start calls) := by
  have fresh : Retried start.engine.config none start := ⟨rfl, nofun, nofun, nofun, nofun⟩
  exact traced_judged (fun _ _ _ kept _ => exec_retried named kept) fresh (.of_all fun _ _ => trivial)

end Runs

end Client

end Dtls13

end Dimpl
