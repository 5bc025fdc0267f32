import Dimpl.Dtls13.Terms
import Dimpl.Lib.Rounds
import Dimpl.Offer

/-!
# What a server selects

A server answers a hello with a suite, a group, a profile and a signature. Suite, group and
profile are taken out of the lists of the client; the group is that of a key share, and not
looked up among the supported groups. The signature is of the scheme of the server's key,
whatever the client listed.
-/

namespace Dimpl.Dtls13

open Nom Program

/-- A number stands in the list of an extension of the type. -/
def Listed (extensions : List Extension) (buffer : Bytes) (type : ExtensionType) (code : Nat) : Prop :=
  ∃ ext ∈ extensions, ext.extensionType = type ∧ code ∈ listed (ext.extensionData buffer)

instance {extensions : List Extension} {buffer : Bytes} {type : ExtensionType} {code : Nat} :
    Decidable (Listed extensions buffer type code) :=
  inferInstanceAs (Decidable (∃ ext ∈ extensions, _ ∧ _))

theorem Listed.mono {extensions more : List Extension} {buffer : Bytes} {type : ExtensionType}
    {code : Nat} (isListed : Listed extensions buffer type code) (subset : extensions ⊆ more) :
    Listed more buffer type code := by
  obtain ⟨ext, member, found⟩ := isListed
  exact ⟨ext, subset member, found⟩

/-- The key shares that stand in an extension. -/
def Shared (extensions : List Extension) (buffer : Bytes) (shares : List KeyShareEntry) : Prop :=
  ∃ ext ∈ extensions, ext.extensionType = .keyShare ∧
    ∃ rest, Nom.parse (parseKeyShareClientHello ext.extensionDataRange.start)
      (ext.extensionData buffer) = .ok (shares, rest)

namespace ClientHello

/-- The client sent an extension of the type. -/
def Sends (hello : ClientHello) (type : ExtensionType) : Prop :=
  ∃ ext ∈ hello.extensions, ext.extensionType = type

/-- The client sent the number in its list. -/
def Lists (hello : ClientHello) (buffer : Bytes) (type : ExtensionType) (code : Nat) : Prop :=
  Listed hello.extensions buffer type code

/-- Where the client sent the list, the number is in it. -/
def Offers (hello : ClientHello) (buffer : Bytes) (type : ExtensionType) (code : Nat) : Prop :=
  hello.Sends type → hello.Lists buffer type code

instance {hello : ClientHello} {type : ExtensionType} : Decidable (hello.Sends type) :=
  inferInstanceAs (Decidable (∃ ext ∈ hello.extensions, _))

instance {hello : ClientHello} {buffer : Bytes} {type : ExtensionType} {code : Nat} :
    Decidable (hello.Lists buffer type code) :=
  inferInstanceAs (Decidable (Listed _ _ _ _))

/-- The client sent a key share of the group. -/
def Shares (hello : ClientHello) (buffer : Bytes) (group : NamedGroup) : Prop :=
  ∃ shares, Shared hello.extensions buffer shares ∧ ∃ share ∈ shares, share.group = group

/-- The key shares of a hello. -/
def keyShares (hello : ClientHello) (buffer : Bytes) : List KeyShareEntry :=
  match Server.readExtensions buffer hello.extensions with
  | .ok found => found.keyShares.getD []
  | .error _ => []

/-- The first key share of a configured group is of a group the client supports. -/
def GroupFits (hello : ClientHello) (buffer : Bytes) (config : Config) : Prop :=
  ∀ share, ((hello.keyShares buffer).find? fun share =>
      (config.kxGroups.map SupportedKxGroup.name).contains share.group) = some share →
    hello.Offers buffer .supportedGroups share.group.asU16

/-- The client sent no signature algorithms, or among them the scheme of the key. -/
def SchemeFits (hello : ClientHello) (buffer : Bytes) (key : SigningKey) : Prop :=
  ∀ scheme, signatureScheme key.algorithm key.hashAlgorithm = some scheme →
    hello.Offers buffer .signatureAlgorithms scheme.asU16

end ClientHello

namespace Server

section Extensions

variable {extensions : List Extension} {buffer : Bytes}

/-- What is kept of the extensions stands in them. -/
structure HelloExtensions.Sound (found : HelloExtensions) (seen : List Extension) (buffer : Bytes) :
    Prop where
  profiles : ∀ profiles, found.profiles = some profiles →
    ∀ profile ∈ profiles, Listed seen buffer .useSrtp profile.asU16
  shares : ∀ shares, found.keyShares = some shares → Shared seen buffer shares

theorem HelloExtensions.Sound.empty {versionOk : Bool} {groups : Option (List NamedGroup)}
    {cookie : Option Bytes} : HelloExtensions.Sound
      { versionOk, keyShares := none, groups, profiles := none, cookie } [] buffer where
  profiles := fun _ isSome => by cases isSome
  shares := fun _ isSome => by cases isSome

/-- An extension that leaves profiles and shares alone. -/
theorem HelloExtensions.Sound.skip {found found' : HelloExtensions} {ext : Extension}
    (sound : found.Sound extensions buffer) (profiles : found'.profiles = found.profiles)
    (shares : found'.keyShares = found.keyShares) : found'.Sound (extensions ++ [ext]) buffer where
  profiles := fun list isSome profile member =>
    (sound.profiles list (profiles ▸ isSome) profile member).mono (List.subset_append_left _ _)
  shares := fun list isSome => by
    obtain ⟨ext, member, isShared⟩ := sound.shares list (shares ▸ isSome)
    exact ⟨ext, List.mem_append_left _ member, isShared⟩

theorem parseExtension_ok {α : Type} {parser : Parser α} {data : Bytes} {value : α}
    (parsed : parseExtension parser data = .ok value) :
    ∃ rest, Nom.parse parser data = .ok (value, rest) := by
  unfold parseExtension at parsed
  split at parsed
  · rename_i found rest isParsed
    cases parsed
    exact ⟨rest, isParsed⟩
  · cases parsed

theorem HelloExtensions.Sound.read {found found' : HelloExtensions} {ext : Extension}
    (sound : found.Sound extensions buffer) (isRead : readExtension buffer found ext = .ok found') :
    found'.Sound (extensions ++ [ext]) buffer := by
  unfold readExtension at isRead
  dsimp only at isRead
  split at isRead
  · cases parsed : parseExtension parseSupportedVersionsClientHello (ext.extensionData buffer) with
    | error fault => simp [parsed, bind, Except.bind] at isRead
    | ok versions =>
        simp only [parsed, bind, Except.bind, pure, Except.pure, Except.ok.injEq] at isRead
        exact sound.skip (isRead ▸ rfl) (isRead ▸ rfl)
  · split at isRead
    · rename_i isType
      cases parsed : parseExtension (parseKeyShareClientHello ext.extensionDataRange.start)
          (ext.extensionData buffer) with
      | error fault => simp [parsed, bind, Except.bind] at isRead
      | ok shares =>
          simp only [parsed, bind, Except.bind, pure, Except.pure, Except.ok.injEq] at isRead
          subst isRead
          have skipped : found.Sound (extensions ++ [ext]) buffer := sound.skip rfl rfl
          refine { skipped with shares := ?_ }
          rintro shares' ⟨rfl⟩
          exact ⟨ext, by simp, isType, parseExtension_ok parsed⟩
    · split at isRead
      · cases parsed : parseExtension parseSupportedGroups (ext.extensionData buffer) with
        | error fault => simp [parsed, bind, Except.bind] at isRead
        | ok groups =>
            simp only [parsed, bind, Except.bind, pure, Except.pure, Except.ok.injEq] at isRead
            exact sound.skip (isRead ▸ rfl) (isRead ▸ rfl)
      · split at isRead
        · rename_i isType
          cases parsed : parseExtension UseSrtpExtension.parse (ext.extensionData buffer) with
          | error fault => simp [parsed, bind, Except.bind] at isRead
          | ok useSrtp =>
              simp only [parsed, bind, Except.bind, pure, Except.pure, Except.ok.injEq] at isRead
              subst isRead
              have skipped : found.Sound (extensions ++ [ext]) buffer := sound.skip rfl rfl
              refine { skipped with profiles := ?_ }
              rintro profiles ⟨rfl⟩ profile member
              obtain ⟨rest, isParsed⟩ := parseExtension_ok parsed
              exact ⟨ext, by simp, isType, UseSrtpExtension.parse_listed isParsed profile member⟩
        · split at isRead
          · cases parsed : parseExtension parseCookieExtension (ext.extensionData buffer) with
            | error fault => simp [parsed, bind, Except.bind] at isRead
            | ok cookie =>
                simp only [parsed, bind, Except.bind] at isRead
                split at isRead
                · cases isRead
                · cases isRead
                  exact sound.skip rfl rfl
          · cases isRead
            exact sound.skip rfl rfl

theorem HelloExtensions.Sound.ofHello {found : HelloExtensions}
    (isRead : readExtensions buffer extensions = .ok found) : found.Sound extensions buffer := by
  have fold : ∀ (rest seen : List Extension) (start : HelloExtensions), start.Sound seen buffer →
      rest.foldlM (readExtension buffer) start = .ok found → found.Sound (seen ++ rest) buffer := by
    intro rest
    induction rest with
    | nil =>
        intro seen start sound folded
        cases folded
        simpa using sound
    | cons ext rest inductionHypothesis =>
        intro seen start sound folded
        rw [List.foldlM_cons] at folded
        cases isNext : readExtension buffer start ext with
        | error err => simp [isNext, bind, Except.bind] at folded
        | ok next =>
            simp only [isNext, bind, Except.bind] at folded
            have result := inductionHypothesis (seen ++ [ext]) next (sound.read isNext) folded
            simpa using result
  simpa using fold extensions [] _ .empty isRead

end Extensions

/-- What matters to the choices of a server: a hello is accepted, and the messages that tell
the choices are written, as they enter the transcript. -/
inductive Choice where
  | accepted (hello : ClientHello) (buffer : Bytes)
  | serverHello (message : Bytes)
  | encryptedExtensions (message : Bytes)
  | certificateVerify (message : Bytes)
  deriving DecidableEq

/-- What a program adds to the transcript. -/
def told {α : Type} (program : ServerM α) (s : Server) : Bytes :=
  (finalState program s).engine.transcript.drop s.engine.transcript.length

/-- How a server looks for a hello. -/
def nextHello (s : Server) : EngineM (Option (Handshake × Bytes)) :=
  if s.autoMode then nextClientHelloForAutoSense else nextHandshake .clientHello

/-- The hello that is accepted, if one is. -/
def acceptedHello (s : Server) : List Choice :=
  match value? (withEngine s.nextHello) s, value? awaitClientHello s with
  | some (some (handshake, buffer)), some .sendServerHello =>
    match handshake.body with
    | .clientHello hello => [.accepted hello buffer]
    | _ => []
  | _, _ => []

/-- What the handler of a state does. -/
def roundChoices (s : Server) : List Choice :=
  match s.state with
  | .awaitClientHello => s.acceptedHello
  | .sendServerHello => [.serverHello (told sendServerHello s)]
  | .sendEncryptedExtensions => [.encryptedExtensions (told sendEncryptedExtensions s)]
  | .sendCertificateVerify => [.certificateVerify (told sendCertificateVerify s)]
  | _ => []

/-- The handlers of a server. -/
def machine : Machine Fault Server State where
  state := Server.state
  enter := fun next s => { s with state := next }
  handler := State.makeProgress

/-- What a call does. -/
def choices (s : Server) : Call → List Choice
  | .handlePacket packet =>
    following (retainHello packet)
      (following (withEngine (receivePacket packet)) (machine.rounds roundChoices 20)) s
  | .handleTimeout now =>
    following (withEndpoint (Endpoint.handleTimeout now)) (machine.rounds roundChoices 20) s
  | _ => []

/-- The extensions of a ServerHello. -/
def serverHelloParts (group : NamedGroup) (publicKey : Bytes) : List (ExtensionType × Bytes) :=
  [(.supportedVersions, ProtocolVersion.dtls13.serialize),
   (.keyShare, be16 group.asU16 ++ be16 publicKey.length ++ publicKey)]

/-- The suite of a ServerHello is the client's, and its group that of one of the client's
shares. It is one of the client's groups if and only if the first share that counts is. -/
def HelloWithin (config : Config) (hello : ClientHello) (buffer message : Bytes) : Prop :=
  ∃ (random : Random) (sessionId : Bytes) (suite : Dtls13CipherSuite) (group : NamedGroup)
    (publicKey : Bytes),
    message = transcriptMessage .serverHello (ServerHello.serialize
      { legacyVersion := .dtls12, random, legacySessionId := sessionId, cipherSuite := suite
        legacyCompressionMethod := .null
        extensions := some (Extension.layout (serverHelloParts group publicKey)).1 }
      (Extension.layout (serverHelloParts group publicKey)).2) ∧
    suite ∈ hello.cipherSuites ∧ hello.Shares buffer group ∧
    (hello.Offers buffer .supportedGroups group.asU16 ↔ hello.GroupFits buffer config)

/-- The profile of the EncryptedExtensions is the client's. -/
def ExtensionsWithin (hello : ClientHello) (buffer message : Bytes) : Prop :=
  ∃ profile : Option SrtpProfile,
    message = transcriptMessage .encryptedExtensions (createEncryptedExtensions profile) ∧
    ∀ chosen, profile = some chosen → hello.Lists buffer .useSrtp chosen.asU16

/-- The scheme of a CertificateVerify is the client's if and only if that of the key is. -/
def VerifyWithin (certificate : DtlsCertificate) (hello : ClientHello) (buffer message : Bytes) :
    Prop :=
  ∃ (scheme : SignatureScheme) (signature : Bytes),
    message = transcriptMessage .certificateVerify
      (be16 scheme.asU16 ++ be16 signature.length ++ signature) ∧
    (hello.Offers buffer .signatureAlgorithms scheme.asU16 ↔
      hello.SchemeFits buffer certificate.signingKey)

/-- Whether a message keeps to the hello that was accepted. -/
def judge (config : Config) (certificate : DtlsCertificate) :
    Option (ClientHello × Bytes) → Choice → Prop
  | _, .accepted _ _ => True
  | some (hello, buffer), .serverHello message =>
    message = [] ∨ HelloWithin config hello buffer message
  | some (hello, buffer), .encryptedExtensions message =>
    message = [] ∨ ExtensionsWithin hello buffer message
  | some (hello, buffer), .certificateVerify message =>
    message = [] ∨ VerifyWithin certificate hello buffer message
  | none, _ => False

/-- The hello that was accepted last. -/
def track : Option (ClientHello × Bytes) → Choice → Option (ClientHello × Bytes)
  | _, .accepted hello buffer => some (hello, buffer)
  | accepted, _ => accepted

section Written

variable {e : Engine} {s : Server} {P : Bytes → Prop}

/-- The transcript is the same, or a message of `P` was added. -/
def Adds (P : Bytes → Prop) (e e' : Engine) : Prop :=
  e'.transcript = e.transcript ∨ ∃ message, P message ∧ e'.transcript = e.transcript ++ message

theorem told_of_adds {α : Type} {program : ServerM α}
    (adds : Post program s (fun _ s' => Adds P s.engine s'.engine) fun _ s' => Adds P s.engine s'.engine) :
    told program s = [] ∨ P (told program s) := by
  rcases post_state.mp adds with same | ⟨message, holds, isAdded⟩
  · exact .inl (by simp [told, same])
  · exact .inr (by simpa [told, isAdded] using holds)

/-- A message enters the transcript before it is cut into records. -/
theorem createHandshake_adds {type : MessageType} {writeBody : EngineM Bytes}
    (readOnly : ReadOnly writeBody)
    (writes : Post writeBody e (fun body _ => P (transcriptMessage type body)) fun _ _ => True) :
    Post (createHandshake type writeBody) e (fun _ e' => Adds P e e') fun _ e' => Adds P e e' := by
  unfold createHandshake
  rw [post_bind]
  refine ((readOnly e).and writes).mono (fun body e₁ written => ?_) fun _ _ failed => .inl ?_
  · obtain ⟨rfl, holds⟩ := written
    rw [post_bind, post_get, post_bind, post_set]
    have fragments : ∀ header fixedOverhead, Along (Frame False)
        (createFragments header (epochForMessage type) fixedOverhead body 13 0) := fun _ _ =>
      createFragments_frame
    have rest : Along (Frame False) (do
        if epochForMessage type = 0 then
          createFragments
            { msgType := type, length := body.length, messageSeq := e.nextHandshakeSeqNo,
              fragmentOffset := 0, fragmentLength := body.length }
            (epochForMessage type) (Dtls13Record.plaintextHeaderLen + 12) body 13 0
        else
          let suite ← suiteProvider
          createFragments
            { msgType := type, length := body.length, messageSeq := e.nextHandshakeSeqNo,
              fragmentOffset := 0, fragmentLength := body.length }
            (epochForMessage type) (5 + 12 + (suite.tagLen + 1)) body 13 0) :=
      along_ite (fun _ => fragments _ _) fun _ =>
        along_bind suiteProvider_readOnly.along fun _ => fragments _ _
    refine (rest _).mono (fun _ e₂ frame => ?_) fun _ e₂ frame => ?_
    · exact .inr ⟨_, holds, (frame.still not_false).1⟩
    · exact .inr ⟨_, holds, (frame.still not_false).1⟩
  · exact failed.1 ▸ rfl

end Written

/-- What the terms have from a hello. -/
structure Agreed (hello : ClientHello) (buffer : Bytes) (terms : Terms) : Prop where
  suite : ∃ suite ∈ hello.cipherSuites, terms.ground.cipherSuite = some suite
  profile : ∀ profile, terms.profile = some profile → hello.Lists buffer .useSrtp profile.asU16

/-- The share that waits for the ServerHello is of a group of the client's shares. -/
def Sharing (config : Config) (hello : ClientHello) (buffer data : Bytes) : Prop :=
  ∃ group : NamedGroup, hello.Shares buffer group ∧
    (hello.Offers buffer .supportedGroups group.asU16 ↔ hello.GroupFits buffer config) ∧
    ∀ share rest, storedShare data = some (share, rest) →
      be16 share.group.asU16 = be16 group.asU16

/-- Until a hello is accepted there is no profile; from then on the terms are those of the
hello. -/
structure Settled (config : Config) (certificate : DtlsCertificate)
    (accepted : Option (ClientHello × Bytes)) (s : Server) : Prop where
  config : s.engine.config = config
  certificate : s.engine.certificate = certificate
  fresh : s.state = .awaitClientHello → s.endpoint.negotiatedSrtpProfile = none
  agreed : s.state ≠ .awaitClientHello → s.state ≠ .closed →
    ∃ hello buffer, accepted = some (hello, buffer) ∧ Agreed hello buffer s.terms

/-- The ServerHello is not begun before its share is there. -/
structure Prepared (config : Config) (certificate : DtlsCertificate)
    (accepted : Option (ClientHello × Bytes)) (s : Server) : Prop where
  settled : Settled config certificate accepted s
  share : s.state = .sendServerHello →
    ∃ hello buffer, accepted = some (hello, buffer) ∧ Sharing config hello buffer s.extensionData

/-- What a server has whatever it is told. -/
def kit (s : Server) : Config × DtlsCertificate × Option SrtpProfile :=
  (s.engine.config, s.engine.certificate, s.endpoint.negotiatedSrtpProfile)

section Hellos

variable {s : Server} {hello : ClientHello} {buffer : Bytes}

theorem kit_parts {s' : Server} (same : s'.kit = s.kit) :
    s'.engine.config = s.engine.config ∧ s'.engine.certificate = s.engine.certificate ∧
      s'.endpoint.negotiatedSrtpProfile = s.endpoint.negotiatedSrtpProfile := by
  simpa [kit] using same

theorem kit_of_terms {α : Type} {program : ServerM α} (keeps : Along (Keeps terms) program) :
    Along (Keeps kit) program :=
  keeps.mono fun _ _ same => congrArg
    (fun t : Terms => (t.ground.config, t.ground.certificate, t.profile)) same

theorem computeCookie_kit {random : Random} : Along (Keeps kit) (computeCookie random) := by
  refine along_bind along_get fun s => ?_
  split
  · exact along_pure
  · exact along_throw

theorem checkCookie_kit {random : Random} {cookie : Option Bytes} :
    Along (Keeps kit) (checkCookie random cookie) := by
  refine along_bind along_get fun s => along_ite (fun _ => ?_) fun _ => along_pure
  refine along_bind computeCookie_kit fun expected => ?_
  cases cookie with
  | some cookie => exact along_ite (fun _ => along_throw) fun _ => along_pure
  | none => exact along_pure

theorem engine_kit {α : Type} {program : EngineM α}
    (keeps : Along (Keeps fun e : Engine => (e.config, e.certificate)) program) :
    Along (Keeps kit) (withEngine program) := by
  intro s
  rw [withEngine_post]
  refine (keeps s.engine).mono (fun _ e same => ?_) fun _ e same => ?_
  · exact congrArg (fun pair => (pair.1, pair.2, s.endpoint.negotiatedSrtpProfile)) same
  · exact congrArg (fun pair => (pair.1, pair.2, s.endpoint.negotiatedSrtpProfile)) same

theorem retryHello_kit {suite : Dtls13CipherSuite} {random : Random} {group : Option NamedGroup} :
    Along (Keeps kit) (retryHello suite random group) := by
  have replaced : ∀ splitAt, Along (Keeps fun e : Engine => (e.config, e.certificate))
      (replaceTranscriptWithMessageHash splitAt) := by
    intro splitAt
    refine along_get_bind fun e => ?_
    rw [post_bind]
    refine (transcriptHashOf_readOnly e).mono ?_ fun _ _ same => same ▸ rfl
    rintro hash _ rfl
    rfl
  have sent : ∀ cookie, Along (Keeps kit) (sendHelloRetryRequest suite cookie group) := fun cookie =>
    along_bind along_get fun _ => along_bind (kit_of_terms (change_terms fun _ => rfl)) fun _ =>
      kit_of_terms (createHandshake_terms along_pure)
  refine along_bind (engine_kit (along_modify fun _ => rfl)) fun _ => along_bind along_get fun s => ?_
  refine along_bind (engine_kit (replaced _)) fun _ => along_bind computeCookie_kit fun cookie => ?_
  refine along_bind (sent cookie) fun _ => along_bind (kit_of_terms (change_terms fun _ => rfl)) fun _ => ?_
  refine along_bind (kit_of_terms (change_terms fun _ => rfl)) fun _ => ?_
  exact along_bind (kit_of_terms (withEndpoint_terms
    (Endpoint.modify_regards Endpoint.terms_regards (fun _ => rfl) fun _ => rfl))) fun _ =>
    along_pure

/-- The share that is put away for the ServerHello. -/
theorem storedShare_append {publicKey : Bytes} {group start stop : Nat} :
    storedShare (publicKey ++ be16 group ++ be32 start ++ be32 stop) =
      some (⟨⟨beValue (be16 group)⟩, ⟨beValue (be32 start), beValue (be32 stop)⟩⟩, publicKey) := by
  unfold storedShare
  have length : (publicKey ++ be16 group ++ be32 start ++ be32 stop).length = publicKey.length + 10 := by
    simp [be16, be32, be24]
  rw [if_neg (by omega)]
  have isStart : (publicKey ++ be16 group ++ be32 start ++ be32 stop).length - 10 = publicKey.length := by
    omega
  dsimp only
  rw [isStart, List.append_assoc, List.append_assoc, List.drop_left' rfl, List.take_left' rfl]
  rfl

/-- A share that is accepted settles suite, profile and group. -/
theorem acceptShare_agreed {suite : Dtls13CipherSuite} {share : KeyShareEntry}
    {profiles : Option (List SrtpProfile)} (fresh : s.endpoint.negotiatedSrtpProfile = none) :
    Post (acceptShare suite share profiles buffer) s
      (fun next s' => next = .sendServerHello ∧ s'.engine.config = s.engine.config ∧
        s'.engine.certificate = s.engine.certificate ∧ s'.engine.cipherSuite = some suite ∧
        s'.endpoint.negotiatedSrtpProfile = profiles.bind List.head? ∧
        ∃ publicKey, s'.extensionData = publicKey ++ be16 share.group.asU16 ++ be32 0 ++
          be32 publicKey.length)
      fun _ s' => s'.kit = s.kit := by
  unfold acceptShare
  rw [post_bind, post_get, post_bind, post_orThrow]
  refine ⟨fun kx _ => ?_, fun _ => rfl⟩
  rw [post_bind]
  refine (kit_of_terms (withEndpoint_terms (Endpoint.startExchange_regards Endpoint.terms_regards)) s).mono
    (fun exchange s₁ same => ?_) fun _ _ same => same
  rw [post_bind, post_modify, post_bind, post_liftCrypto]
  refine ⟨fun sharedSecret _ => ?_, fun _ _ => same⟩
  rw [post_bind, post_modify, post_bind, withEngine_post, post_modify, post_bind, post_modify]
  unfold advance
  rw [post_bind, withEngine_post, post_modify, post_pure]
  obtain ⟨isConfig, isCertificate, isProfile⟩ := kit_parts same
  refine ⟨rfl, isConfig, isCertificate, rfl, ?_, exchange.pubKey, rfl⟩
  show (profiles.bind List.head?).or s₁.endpoint.negotiatedSrtpProfile = _
  rw [isProfile, fresh, Option.or_none]

/-- What a hello leads to: nothing, a retry, or terms that are its own. -/
def Led (start : Server) (hello : ClientHello) (buffer : Bytes) (next : State) (s : Server) : Prop :=
  s.engine.config = start.engine.config ∧ s.engine.certificate = start.engine.certificate ∧
    (next = .awaitClientHello ∧ s.endpoint.negotiatedSrtpProfile = none ∨
      next = .sendServerHello ∧ Agreed hello buffer s.terms ∧
        Sharing start.engine.config hello buffer s.extensionData)

theorem Led.of_kit {s' : Server} (fresh : s.endpoint.negotiatedSrtpProfile = none)
    (same : s'.kit = s.kit) : Led s hello buffer .awaitClientHello s' := by
  obtain ⟨isConfig, isCertificate, isProfile⟩ := kit_parts same
  exact ⟨isConfig, isCertificate, .inl ⟨rfl, isProfile.trans fresh⟩⟩

theorem retryHello_led {start : Server} {suite : Dtls13CipherSuite} {random : Random}
    {group : Option NamedGroup} (fresh : start.endpoint.negotiatedSrtpProfile = none)
    (same : s.kit = start.kit) :
    Post (retryHello suite random group) s (Led start hello buffer) fun _ s' => s'.kit = start.kit := by
  have stays : Returns (fun next => next = State.awaitClientHello) (retryHello suite random group) :=
    returns_bind fun _ => returns_bind fun _ => returns_bind fun _ => returns_bind fun _ =>
      returns_bind fun _ => returns_bind fun _ => returns_bind fun _ => returns_bind fun _ =>
        returns_pure rfl
  refine ((retryHello_kit s).and (stays s)).mono (fun next s' both => ?_) fun _ _ both =>
    both.1.trans same
  obtain ⟨kept, rfl⟩ := both
  exact .of_kit fresh (kept.trans same)

/-- The first share of a configured group settles the group. -/
theorem sharing_of_first {config : Config} {found : HelloExtensions} {share : KeyShareEntry}
    {publicKey : Bytes} (isRead : readExtensions buffer hello.extensions = .ok found)
    (isShare : ((found.keyShares.getD []).find? fun share =>
      (config.kxGroups.map SupportedKxGroup.name).contains share.group) = some share) :
    Sharing config hello buffer
      (publicKey ++ be16 share.group.asU16 ++ be32 0 ++ be32 publicKey.length) := by
  have isShares : hello.keyShares buffer = found.keyShares.getD [] := by
    simp [ClientHello.keyShares, isRead]
  have member := List.mem_of_find?_eq_some isShare
  refine ⟨share.group, ?_, ?_, ?_⟩
  · cases known : found.keyShares with
    | none => simp [known] at member
    | some shares =>
        rw [known] at member
        exact ⟨shares, (HelloExtensions.Sound.ofHello isRead).shares shares known, share, member, rfl⟩
  · unfold ClientHello.GroupFits
    rw [isShares, isShare]
    exact ⟨fun offers _ isSame => by cases isSame; exact offers, fun fits => fits share rfl⟩
  · intro stored rest isStored
    rw [storedShare_append] at isStored
    cases isStored
    rw [beValue_be16]
    simp only [be16, List.cons.injEq, and_true]
    constructor
    · apply UInt8.toNat_inj.mp
      simp only [UInt8.toNat_ofNat']
      omega
    · apply UInt8.toNat_inj.mp
      simp only [UInt8.toNat_ofNat']
      omega

theorem selectShare_led {start : Server} {suite : Dtls13CipherSuite} {found : HelloExtensions}
    (isRead : readExtensions buffer hello.extensions = .ok found)
    (fresh : start.endpoint.negotiatedSrtpProfile = none) (same : s.kit = start.kit)
    (isOffered : suite ∈ hello.cipherSuites) :
    Post (selectShare suite hello.random (start.engine.config.kxGroups.map SupportedKxGroup.name)
        found buffer) s (Led start hello buffer) fun _ s' => s'.kit = start.kit := by
  have parts := kit_parts same
  unfold selectShare
  split
  · rename_i share isShare
    refine (acceptShare_agreed (parts.2.2.trans fresh)).mono (fun next s' accepted => ?_)
      fun _ _ kept => kept.trans same
    obtain ⟨rfl, config, certificate, isSuite, isProfile, publicKey, isData⟩ := accepted
    refine ⟨config.trans parts.1, certificate.trans parts.2.1, .inr ⟨rfl, ⟨⟨suite, isOffered, isSuite⟩, ?_⟩, ?_⟩⟩
    · intro profile isSome
      have isSome : s'.endpoint.negotiatedSrtpProfile = some profile := isSome
      rw [isProfile] at isSome
      obtain ⟨profiles, isProfiles, isHead⟩ := Option.bind_eq_some_iff.mp isSome
      exact (HelloExtensions.Sound.ofHello isRead).profiles profiles isProfiles profile
        (List.mem_of_head? isHead)
    · rw [isData]
      exact sharing_of_first isRead isShare
  · split
    · exact same
    · rw [post_bind, post_get, post_ite]
      exact ⟨fun _ => same, fun _ => retryHello_led fresh same⟩

/-- A hello is accepted with its first suite that is allowed and its first share of a
configured group, or it leads to a retry. -/
theorem acceptClientHello_led {lengthBefore : Nat} {found : HelloExtensions}
    (isRead : readExtensions buffer hello.extensions = .ok found)
    (fresh : s.endpoint.negotiatedSrtpProfile = none) :
    Post (acceptClientHello lengthBefore hello found buffer) s (Led s hello buffer)
      fun _ s' => s'.kit = s.kit := by
  unfold acceptClientHello
  rw [post_bind, post_get, post_bind, post_orThrow]
  refine ⟨fun suite isSuite => ?_, fun _ => rfl⟩
  have isOffered := List.mem_of_find?_eq_some isSuite
  rw [post_bind, post_modify, post_bind, withEngine_post]
  unfold supportedGroups
  dsimp only
  rw [post_ite]
  refine ⟨fun _ => ?_, fun _ => rfl⟩
  rw [post_pure, post_bind]
  refine (checkCookie_kit _).mono (fun passed s₁ same => ?_) fun _ _ same => same
  rw [post_ite]
  refine ⟨fun _ => selectShare_led isRead fresh same isOffered, fun _ => ?_⟩
  rw [post_bind, post_get, post_ite]
  refine ⟨fun _ => ?_, fun _ => retryHello_led fresh same⟩
  rw [post_bind, withEngine_post, post_modify, post_pure]
  exact .of_kit fresh same

theorem handleClientHello_led {lengthBefore : Nat} (fresh : s.endpoint.negotiatedSrtpProfile = none) :
    Post (handleClientHello lengthBefore hello buffer) s (Led s hello buffer)
      fun _ s' => s'.kit = s.kit := by
  unfold handleClientHello
  split
  · rfl
  · cases isRead : readExtensions buffer hello.extensions with
    | error fault => rfl
    | ok found =>
        show Post (if !found.versionOk then _ else _) s _ _
        rw [post_ite]
        refine ⟨fun _ => ?_, fun _ => acceptClientHello_led isRead fresh⟩
        rw [post_bind, post_get, post_ite]
        exact ⟨fun _ => rfl, fun _ => rfl⟩

end Hellos

section Handlers

variable {config : Config} {certificate : DtlsCertificate}
  {accepted : Option (ClientHello × Bytes)} {s : Server} {hello : ClientHello} {buffer : Bytes}

/-- A hello that is accepted is the one the handler finds. -/
theorem acceptedHello_of {next : State} {s' : Server} {handshake : Handshake} {found : Server}
    (isFound : withEngine s.nextHello s = .ok (some (handshake, buffer)) found)
    (ok : awaitClientHello s = .ok next s') (isHello : handshake.body = .clientHello hello) :
    s.acceptedHello = if next = .sendServerHello then [.accepted hello buffer] else [] := by
  unfold acceptedHello
  rw [value_of_ok isFound, value_of_ok ok]
  cases next <;> simp [isHello]

theorem acceptedHello_stay {s' : Server} {next : State} (ok : awaitClientHello s = .ok next s')
    (stays : next ≠ .sendServerHello) : s.acceptedHello = [] := by
  unfold acceptedHello
  rw [value_of_ok ok]
  split
  · rename_i isNext
    cases isNext
    exact absurd rfl stays
  · rfl

theorem acceptedHello_error {s' : Server} {fault : Fault} (failed : awaitClientHello s = .error fault s') :
    s.acceptedHello = [] := by
  unfold acceptedHello value?
  rw [failed]
  split <;> simp_all

/-- The handler of the hello. -/
theorem awaitClientHello_led (fresh : s.endpoint.negotiatedSrtpProfile = none) :
    Post awaitClientHello s
      (fun next s' => s'.state = s.state ∧ s'.engine.config = s.engine.config ∧
        s'.engine.certificate = s.engine.certificate ∧
        (next = .awaitClientHello ∧ s'.endpoint.negotiatedSrtpProfile = none ∨
          next = .sendServerHello ∧ ∃ hello buffer, s.acceptedHello = [.accepted hello buffer] ∧
            Agreed hello buffer s'.terms ∧ Sharing s.engine.config hello buffer s'.extensionData))
      fun _ s' => s'.state = s.state ∧ s'.kit = s.kit := by
  have framed : Along (Frame True) s.nextHello :=
    along_ite (fun _ => nextHandshakeWithOptions_frame) fun _ => nextHandshakeWithOptions_frame
  have state : Post awaitClientHello s (fun _ s' => s'.state = s.state) fun _ s' => s'.state = s.state :=
    (awaitClientHello_leads s).mono (fun _ _ led => led.1.state) fun _ _ within => within.state
  -- What the handler finds is the hello that counts as accepted.
  have post : Post awaitClientHello s
      (fun next s' => next = .awaitClientHello ∧ s'.kit = s.kit ∨
        ∃ hello buffer handshake found, Led s hello buffer next s' ∧
          withEngine s.nextHello s = .ok (some (handshake, buffer)) found ∧
          handshake.body = .clientHello hello)
      fun _ s' => s'.kit = s.kit := by
    unfold awaitClientHello
    rw [post_bind, post_get]
    show Post (onMessage s.nextHello _ _) s _ _
    unfold onMessage
    rw [post_bind]
    refine ((kit_of_terms (framed_terms framed) s).and post_self).mono
      (fun found s₁ both => ?_) fun _ s₁ both => both.1
    obtain ⟨kept, isFound⟩ := both
    cases found with
    | none => exact .inl ⟨rfl, kept⟩
    | some message =>
        obtain ⟨handshake, buffer⟩ := message
        dsimp only
        split
        · rename_i hello isBody
          have parts := kit_parts kept
          refine (handleClientHello_led (parts.2.2.trans fresh)).mono (fun next s₂ led => ?_)
            fun _ s₂ failed => failed.trans kept
          refine .inr ⟨hello, buffer, handshake, s₁, ?_, isFound, isBody⟩
          obtain ⟨isConfig, isCertificate, outcome⟩ := led
          rw [parts.1] at isConfig outcome
          exact ⟨isConfig, isCertificate.trans parts.2.1, outcome⟩
        · exact kept
  refine (state.and (post.and post_self)).mono (fun next s' all => ?_) fun _ s' all =>
    ⟨all.1, all.2.1⟩
  obtain ⟨sameState, outcome, ok⟩ := all
  rcases outcome with ⟨rfl, kept⟩ | ⟨hello, buffer, handshake, found, led, isFound, isBody⟩
  · have parts := kit_parts kept
    exact ⟨sameState, parts.1, parts.2.1, .inl ⟨rfl, parts.2.2.trans fresh⟩⟩
  · refine ⟨sameState, led.1, led.2.1, led.2.2.imp_right ?_⟩
    rintro ⟨rfl, agreed, sharing⟩
    exact ⟨rfl, hello, buffer, by simp [acceptedHello_of isFound ok isBody], agreed, sharing⟩

/-- The ServerHello of a server that is prepared. -/
theorem sendServerHello_chosen (agreed : Agreed hello buffer s.terms)
    (sharing : Sharing config hello buffer s.extensionData) :
    told sendServerHello s = [] ∨ HelloWithin config hello buffer (told sendServerHello s) := by
  obtain ⟨suite, isOffered, isSuite⟩ := agreed.suite
  have isSuite : s.engine.cipherSuite = some suite := isSuite
  obtain ⟨group, isShared, fits, isGroup⟩ := sharing
  apply told_of_adds
  unfold sendServerHello
  rw [post_bind, post_get, post_bind, post_orThrow]
  refine ⟨fun random _ => ?_, fun _ => .inl rfl⟩
  rw [post_bind, post_orThrow]
  refine ⟨fun stored isStored => ?_, fun _ => .inl rfl⟩
  obtain ⟨share, data⟩ := stored
  have isGroup := isGroup share data isStored
  dsimp only
  rw [post_bind, post_set, post_bind, withEngine_post, post_modify, post_bind, withEngine_post]
  have writes : Post (createServerHello random (s.clientSessionId.getD []) share data)
      s.engine.flightBegin
      (fun body _ => HelloWithin config hello buffer (transcriptMessage .serverHello body))
      fun _ _ => True := by
    unfold createServerHello
    rw [post_bind, post_get, post_bind, post_orThrow]
    refine ⟨fun chosen isChosen => ?_, fun _ => trivial⟩
    have isChosen : s.engine.cipherSuite = some chosen := isChosen
    rw [isSuite] at isChosen
    cases isChosen
    dsimp only
    rw [post_ite]
    refine ⟨fun _ => trivial, fun _ => ?_⟩
    refine ⟨random, s.clientSessionId.getD [], suite, group, share.keyExchange data, ?_, isOffered,
      isShared, fits⟩
    rw [serverHelloParts, ← isGroup]
    rfl
  have readOnly : ReadOnly (createServerHello random (s.clientSessionId.getD []) share data) := by
    refine along_bind along_get fun e => along_bind along_orThrow fun suite => ?_
    exact along_ite (fun _ => along_throw) fun _ => along_pure
  refine (createHandshake_adds readOnly writes).mono (fun _ e₁ adds => ?_) fun _ e₁ adds => adds
  -- The keys leave the transcript alone.
  have keys : Along (Keeps fun s : Server => s.engine.transcript) (do
      let sharedSecret ← orThrow (.fatal (.invalidState .noSharedSecretForHandshakeKeyDerivation))
        (← get).sharedSecret
      modify fun (s : Server) => { s with sharedSecret := none }
      withEndpoint (Endpoint.installHandshakeSecrets sharedSecret)
      return State.sendEncryptedExtensions) := by
    refine along_bind along_get fun s => along_bind along_orThrow fun sharedSecret => ?_
    refine along_bind (along_modify fun _ => rfl) fun _ => along_bind ?_ fun _ => along_pure
    have installs : Along (Keeps fun p : Endpoint => p.engine.transcript)
        (Endpoint.installHandshakeSecrets sharedSecret) := by
      refine along_bind (along_zoom deriveHandshakeSecrets_readOnly fun _ _ same => same ▸ rfl)
        fun secrets => along_bind (along_modify fun _ => rfl) fun _ => ?_
      have frame : Along (Frame False) (installHandshakeKeys secrets.1 secrets.2.1) :=
        installHandshakeKeys_frame
      exact along_zoom frame fun _ _ kept => (kept.still not_false).1
    exact along_zoom installs fun _ _ same => same
  refine (keys _).mono (fun _ s₂ same => ?_) fun _ s₂ same => ?_
  · exact adds.imp (fun kept => same.trans kept) fun ⟨message, holds, isAdded⟩ =>
      ⟨message, holds, same.trans isAdded⟩
  · exact adds.imp (fun kept => same.trans kept) fun ⟨message, holds, isAdded⟩ =>
      ⟨message, holds, same.trans isAdded⟩

theorem sendEncryptedExtensions_chosen (agreed : Agreed hello buffer s.terms) :
    told sendEncryptedExtensions s = [] ∨
      ExtensionsWithin hello buffer (told sendEncryptedExtensions s) := by
  apply told_of_adds
  unfold sendEncryptedExtensions
  rw [post_bind, post_get, post_bind, withEngine_post]
  refine (createHandshake_adds along_pure ?_).mono (fun _ e₁ adds => ?_) fun _ e₁ adds => adds
  · exact ⟨_, rfl, agreed.profile⟩
  · rw [post_bind, post_get]
    exact adds

theorem sendCertificateVerify_chosen (isCertificate : s.engine.certificate = certificate) :
    told sendCertificateVerify s = [] ∨
      VerifyWithin certificate hello buffer (told sendCertificateVerify s) := by
  apply told_of_adds
  unfold sendCertificateVerify
  rw [post_bind, withEngine_post]
  have readOnly : ReadOnly (createCertificateVerify serverLabel) := by
    refine along_bind transcriptHash_readOnly fun _ => along_bind along_get fun e => ?_
    exact along_bind along_liftCrypto fun _ => along_bind along_orThrow fun _ => along_pure
  refine (createHandshake_adds readOnly ?_).mono (fun _ e₁ adds => adds) fun _ e₁ adds => adds
  unfold createCertificateVerify
  rw [post_bind]
  refine (transcriptHash_readOnly s.engine).mono (fun hash _ same => ?_) fun _ _ _ => trivial
  subst same
  rw [post_bind, post_get, post_bind, post_liftCrypto]
  refine ⟨fun signature _ => ?_, fun _ _ => trivial⟩
  rw [post_bind, post_orThrow]
  refine ⟨fun scheme isScheme => ?_, fun _ => trivial⟩
  refine ⟨scheme, signature, rfl, ?_⟩
  unfold ClientHello.SchemeFits
  rw [← isCertificate, isScheme]
  exact ⟨fun offers _ isSame => by cases isSame; exact offers, fun fits => fits scheme rfl⟩

/-- The choices of a server that is prepared keep to the hello. -/
theorem roundChoices_judged (prepared : Prepared config certificate accepted s)
    (later : s.state ≠ .awaitClientHello) :
    Judged (judge config certificate) track accepted s.roundChoices ∧
      s.roundChoices.foldl track accepted = accepted := by
  by_cases isClosed : s.state = .closed
  · simp [roundChoices, isClosed, Judged]
  · obtain ⟨hello, buffer, rfl, agreed⟩ := prepared.settled.agreed later isClosed
    unfold roundChoices
    split
    · rename_i isHello
      exact absurd isHello later
    · rename_i isSending
      obtain ⟨_, _, ⟨rfl⟩, sharing⟩ := prepared.share isSending
      exact ⟨⟨sendServerHello_chosen agreed sharing, trivial⟩, rfl⟩
    · exact ⟨⟨sendEncryptedExtensions_chosen agreed, trivial⟩, rfl⟩
    · exact ⟨⟨sendCertificateVerify_chosen prepared.settled.certificate, trivial⟩, rfl⟩
    · exact ⟨trivial, rfl⟩

theorem Settled.of_terms {s' : Server} (settled : Settled config certificate accepted s)
    (same : s'.terms = s.terms) (state : s'.state = s.state) :
    Settled config certificate accepted s' where
  config := (congrArg (fun t : Terms => t.ground.config) same).trans settled.config
  certificate := (congrArg (fun t : Terms => t.ground.certificate) same).trans settled.certificate
  fresh := fun isHello => (congrArg Terms.profile same).trans (settled.fresh (state ▸ isHello))
  agreed := fun later notClosed => by
    rw [same]
    rw [state] at later notClosed
    exact settled.agreed later notClosed

theorem Settled.closed {s' : Server} (settled : Settled config certificate accepted s') :
    Settled config certificate accepted { s' with state := .closed } where
  config := settled.config
  certificate := settled.certificate
  fresh := fun isHello => by cases isHello
  agreed := fun _ notClosed => absurd rfl notClosed

theorem Settled.after {α : Type} {program : ServerM α} (settled : Settled config certificate accepted s)
    (same : Along (Keeps terms) program) (state : Along (Keeps Server.state) program) :
    Post program s (fun _ s' => Settled config certificate accepted s')
      fun _ s' => Settled config certificate accepted s' :=
  ((same s).and (state s)).mono (fun _ _ both => settled.of_terms both.1 both.2)
    fun _ _ both => settled.of_terms both.1 both.2

/-- A server that does not stand at the ServerHello. -/
structure Elsewhere (config : Config) (certificate : DtlsCertificate)
    (accepted : Option (ClientHello × Bytes)) (s : Server) : Prop where
  settled : Settled config certificate accepted s
  other : s.state ≠ .sendServerHello

theorem Elsewhere.prepared (elsewhere : Elsewhere config certificate accepted s) :
    Prepared config certificate accepted s :=
  ⟨elsewhere.settled, fun isSending => absurd isSending elsewhere.other⟩

theorem Elsewhere.after {α : Type} {program : ServerM α}
    (elsewhere : Elsewhere config certificate accepted s)
    (same : Along (Keeps terms) program) (state : Along (Keeps Server.state) program) :
    Post program s (fun _ s' => Elsewhere config certificate accepted s')
      fun _ s' => Settled config certificate accepted s' :=
  ((elsewhere.settled.after same state).and (state s)).mono
    (fun _ _ both => ⟨both.1, fun isSending => elsewhere.other (both.2.symm.trans isSending)⟩)
    fun _ _ both => both.1

/-- Where the handlers behind the hello lead: not back to it or to the ServerHello, and from
the end nowhere. -/
def Later (state next : State) : Prop :=
  next ≠ .awaitClientHello ∧ next ≠ .sendServerHello ∧ (state = .closed → next = .closed)

theorem onMessage_later {state stay : State} {program : EngineM (Option (Handshake × Bytes))}
    {handle : Body → Bytes → ServerM State} (stays : Later state stay)
    (handles : ∀ body buffer, Leads (Keeps Server.state) (handle body buffer) fun next _ =>
      Later state next) :
    Leads (Keeps Server.state) (onMessage program stay handle) fun next _ => Later state next := by
  refine leads_bind withEndpoint_state fun found => ?_
  cases found with
  | none => exact leads_pure fun _ => stays
  | some message => exact handles _ _

theorem sendServerHello_later :
    Leads (Keeps Server.state) sendServerHello fun next _ => Later .sendServerHello next := by
  intro s
  unfold sendServerHello
  rw [post_bind, post_get, post_bind, post_orThrow]
  refine ⟨fun random _ => ?_, fun _ => rfl⟩
  rw [post_bind, post_orThrow]
  refine ⟨fun stored _ => ?_, fun _ => rfl⟩
  dsimp only
  rw [post_bind, post_set]
  refine Leads.after (s := s) ?_ rfl
  refine leads_bind withEndpoint_state fun _ => leads_bind withEndpoint_state fun _ => ?_
  refine leads_bind along_get fun s => leads_bind along_orThrow fun _ => ?_
  refine leads_bind (along_modify fun _ => rfl) fun _ => leads_bind withEndpoint_state fun _ => ?_
  exact leads_pure fun _ => by simp [Later]

theorem awaitCertificate_later :
    Leads (Keeps Server.state) awaitCertificate fun next _ => Later .awaitCertificate next := by
  refine onMessage_later (by simp [Later]) fun body buffer => ?_
  split
  · refine leads_ite (fun _ => ?_) fun _ => ?_
    · refine leads_bind withEndpoint_state fun _ => leads_bind withEndpoint_state fun _ => ?_
      exact leads_pure fun _ => by simp [Later]
    · refine leads_bind withEndpoint_state fun _ => leads_bind withEndpoint_state fun _ => ?_
      exact leads_bind withEndpoint_state fun _ => leads_pure fun _ => by simp [Later]
  · exact leads_throw

theorem awaitFinished_later :
    Leads (Keeps Server.state) awaitFinished fun next _ => Later .awaitFinished next := by
  refine leads_bind along_get fun s => leads_bind along_get fun s => leads_bind along_orThrow fun _ => ?_
  refine leads_bind withEndpoint_state fun _ => onMessage_later (by simp [Later]) fun body buffer => ?_
  split
  · refine leads_bind withEndpoint_state fun _ => leads_bind withEndpoint_state fun _ => ?_
    refine leads_bind withEndpoint_state fun _ => leads_bind withEndpoint_state fun _ => ?_
    exact leads_pure fun _ => by simp [Later]
  · exact leads_throw

theorem handlers_later {state : State} (later : state ≠ .awaitClientHello) :
    Leads (Keeps Server.state) state.makeProgress fun next _ => Later state next := by
  cases state with
  | awaitClientHello => exact absurd rfl later
  | sendServerHello => exact sendServerHello_later
  | sendEncryptedExtensions =>
      refine leads_bind along_get fun s => leads_bind withEndpoint_state fun _ => ?_
      refine leads_bind along_get fun s => leads_pure fun _ => ?_
      split <;> simp [Later]
  | sendCertificateRequest =>
      refine leads_bind withEndpoint_state fun _ => leads_bind withEndpoint_state fun _ => ?_
      exact leads_pure fun _ => by simp [Later]
  | sendCertificate => exact leads_bind withEndpoint_state fun _ => leads_pure fun _ => by simp [Later]
  | sendCertificateVerify =>
      exact leads_bind withEndpoint_state fun _ => leads_pure fun _ => by simp [Later]
  | sendFinished =>
      refine leads_bind along_get fun s => leads_bind along_orThrow fun _ => ?_
      refine leads_bind withEndpoint_state fun _ => leads_bind withEndpoint_state fun _ => ?_
      refine leads_bind withEndpoint_state fun _ => leads_bind along_get fun s => leads_pure fun _ => ?_
      split <;> simp [Later]
  | awaitCertificate => exact awaitCertificate_later
  | awaitCertificateVerify =>
      refine leads_bind along_get fun s => leads_bind withEndpoint_state fun _ => ?_
      refine onMessage_later (by simp [Later]) fun body buffer => ?_
      split
      · exact leads_bind withEndpoint_state fun _ => leads_pure fun _ => by simp [Later]
      · exact leads_throw
  | awaitFinished => exact awaitFinished_later
  | awaitApplicationData =>
      exact leads_bind withEndpoint_state fun _ => leads_pure fun _ => by simp [Later]
  | halfClosedLocal =>
      refine leads_bind withEndpoint_state fun isClosed => leads_pure fun _ => ?_
      split <;> simp [Later]
  | closed => exact leads_pure fun _ => by simp [Later]

/-- One round keeps to the hello. -/
theorem round_prepared (prepared : Prepared config certificate accepted s) :
    Judged (judge config certificate) track accepted s.roundChoices ∧
      Post s.state.makeProgress s
        (fun next s' =>
          if next = s.state then Settled config certificate (s.roundChoices.foldl track accepted) s'
          else Prepared config certificate (s.roundChoices.foldl track accepted) { s' with state := next })
        fun _ s' => Settled config certificate (s.roundChoices.foldl track accepted) s' := by
  have settled := prepared.settled
  by_cases isHello : s.state = .awaitClientHello
  · have isActs : s.roundChoices = s.acceptedHello := by simp [roundChoices, isHello]
    have post := (awaitClientHello_led (settled.fresh isHello)).and post_self
    rw [isActs, isHello]
    refine ⟨?_, ?_⟩
    · unfold acceptedHello
      split
      · split
        · exact ⟨trivial, trivial⟩
        · trivial
      · trivial
    · refine post.mono (fun next s' both => ?_) fun fault s' both => ?_
      · obtain ⟨⟨sameState, isConfig, isCertificate, outcome⟩, ok⟩ := both
        have isConfig := isConfig.trans settled.config
        have isCertificate := isCertificate.trans settled.certificate
        rcases outcome with ⟨rfl, isFresh⟩ | ⟨rfl, hello, buffer, isAccepted, agreed, sharing⟩
        · rw [acceptedHello_stay ok (by decide), if_pos rfl]
          exact ⟨isConfig, isCertificate, fun _ => isFresh,
            fun later => absurd (sameState.trans isHello) later⟩
        · rw [isAccepted, if_neg (by decide)]
          rw [settled.config] at sharing
          exact ⟨⟨isConfig, isCertificate, by simp, fun _ _ => ⟨hello, buffer, rfl, agreed⟩⟩,
            fun _ => ⟨hello, buffer, rfl, sharing⟩⟩
      · rw [acceptedHello_error both.2]
        obtain ⟨⟨sameState, same⟩, _⟩ := both
        obtain ⟨isConfig, isCertificate, isProfile⟩ := kit_parts same
        exact ⟨isConfig.trans settled.config, isCertificate.trans settled.certificate,
          fun _ => isProfile.trans (settled.fresh isHello),
          fun later => absurd (sameState.trans isHello) later⟩
  · obtain ⟨judged, isTracked⟩ := roundChoices_judged prepared isHello
    refine ⟨judged, ?_⟩
    rw [isTracked]
    refine ((handlers_terms isHello s).and (handlers_later isHello s)).mono
      (fun next s' all => ?_) fun _ s' all => settled.of_terms all.1 all.2
    obtain ⟨same, sameState, later, notSending, closed⟩ := all
    have kept := settled.of_terms same sameState
    split
    · exact kept
    · refine Elsewhere.prepared ⟨⟨kept.config, kept.certificate, fun isAwait => absurd isAwait later,
        fun _ notClosed => ?_⟩, notSending⟩
      exact kept.agreed (sameState ▸ isHello) fun isClosed =>
        notClosed (closed (sameState ▸ isClosed))

theorem progressLoop_machine {fuel : Nat} : progressLoop fuel = machine.loop (.panic .assertion) fuel := by
  induction fuel with
  | zero => rfl
  | succ fuel inductionHypothesis =>
      unfold progressLoop Machine.loop
      rw [inductionHypothesis]
      rfl

/-- The rounds of a call. -/
theorem makeProgress_settled (prepared : Prepared config certificate accepted s) :
    Judged (judge config certificate) track accepted (machine.rounds roundChoices 20 s) ∧
      Settled config certificate ((machine.rounds roundChoices 20 s).foldl track accepted)
        (finalState makeProgress s) := by
  unfold makeProgress
  rw [progressLoop_machine]
  exact machine.loop_judged (fun _ _ kept => kept.settled) (fun _ _ kept => round_prepared kept) prepared

theorem retainHello_terms {packet : Bytes} : Along (Keeps terms) (retainHello packet) := by
  refine along_get_bind fun s => ?_
  rw [post_ite]
  refine ⟨fun _ => ?_, fun _ => rfl⟩
  rw [post_ite]
  exact ⟨fun _ => rfl, fun _ => rfl⟩

/-- The version that is decided behind the rounds changes nothing of it. -/
theorem commitVersion_settled (settled : Settled config certificate accepted s) :
    Settled config certificate accepted s.commitVersion := by
  unfold commitVersion
  split
  · exact settled.of_terms rfl rfl
  · exact settled

theorem sendApplicationData_terms {data : Bytes} :
    Along (Keeps fun s : Server => (s.terms, s.state)) (sendApplicationData data) := by
  refine along_bind along_get fun s => along_ite (fun _ => along_throw) fun _ => ?_
  have sends : ∀ {program : EndpointM Unit}, Along (Keeps Endpoint.terms) program →
      Along (Keeps fun s : Server => (s.terms, s.state)) (withEndpoint program) := fun keeps s =>
    ((withEndpoint_terms keeps s).and (withEndpoint_state s)).mono
      (fun _ _ both => Prod.ext both.1 both.2) fun _ _ both => Prod.ext both.1 both.2
  refine along_ite (fun _ => sends ?_) fun _ => sends (Endpoint.sendData_regards Endpoint.terms_regards)
  exact Endpoint.modify_regards Endpoint.terms_regards (fun _ => rfl) fun _ => rfl

/-- A call that does not find the server at the ServerHello keeps to the hello. -/
theorem exec_settled {call : Call} (settled : Settled config certificate accepted s)
    (other : s.state ≠ .sendServerHello) :
    Judged (judge config certificate) track accepted (s.choices call) ∧
      Settled config certificate ((s.choices call).foldl track accepted) (s.exec call) := by
  have elsewhere : Elsewhere config certificate accepted s := ⟨settled, other⟩
  cases call with
  | handlePacket packet =>
      have still : Along (Keeps Server.state) (retainHello packet) := fun s =>
        (retainHello_within s).mono (fun _ _ within => within.state) fun _ _ within => within.state
      refine judged_following
        (publicResult do withEngine (receivePacket packet); makeProgress; modify commitVersion)
        (elsewhere.after (@retainHello_terms packet) still) fun s₁ elsewhere => ?_
      rw [finalState_publicResult]
      refine judged_following _ (elsewhere.after (framed_terms (@receivePacket_frame True packet))
        withEndpoint_state) fun s₂ elsewhere => ?_
      obtain ⟨judged, ended⟩ := makeProgress_settled elsewhere.prepared
      refine ⟨judged, post_state.mp (post_bind.mpr ?_)⟩
      exact (post_state.mpr ended).mono (fun _ _ ended => commitVersion_settled ended)
        fun _ _ ended => ended
  | handleTimeout now =>
      refine judged_following (publicResult makeProgress)
        (elsewhere.after (withEndpoint_terms (Endpoint.handleTimeout_regards Endpoint.terms_regards)) withEndpoint_state)
        fun s₁ elsewhere => ?_
      rw [finalState_publicResult]
      exact makeProgress_settled elsewhere.prepared
  | pollOutput bufLen =>
      refine ⟨trivial, post_state.mp (post_bind.mpr ?_)⟩
      exact settled.after (withEndpoint_terms (Endpoint.pollOutput_regards Endpoint.terms_regards)) withEndpoint_state
  | sendApplicationData data =>
      refine ⟨trivial, post_state.mp ?_⟩
      exact (sendApplicationData_terms s).mono
        (fun _ _ kept => settled.of_terms (congrArg Prod.fst kept) (congrArg Prod.snd kept))
        fun _ _ kept => settled.of_terms (congrArg Prod.fst kept) (congrArg Prod.snd kept)
  | close =>
      refine ⟨trivial, post_state.mp ?_⟩
      show Post close s _ _
      unfold close
      rw [post_bind, post_get, post_ite]
      refine ⟨fun _ => settled, fun _ => ?_⟩
      rw [post_ite]
      refine ⟨fun _ => ?_, fun isData => ?_⟩
      · rw [post_bind]
        exact (settled.after (@change_terms Engine.abort fun _ => rfl) withEndpoint_state).mono
          (fun _ s' kept => kept.closed) fun _ _ kept => kept
      · rw [post_bind]
        have isData : s.state = .awaitApplicationData := by simpa using isData
        refine ((settled.after (withEndpoint_terms (Endpoint.closeWrite_regards Endpoint.terms_regards)) withEndpoint_state).and
          (withEndpoint_state s)).mono (fun _ s' both => ?_) fun _ _ both => both.1
        obtain ⟨kept, sameState⟩ := both
        have sameState := sameState.trans isData
        exact
          { config := kept.config
            certificate := kept.certificate
            fresh := fun isHello => by cases isHello
            agreed := fun _ _ => kept.agreed (by simp [sameState]) (by simp [sameState]) }

/-- A server that has accepted nothing yet. -/
theorem Start.settled (start : Start s) :
    Settled s.engine.config s.engine.certificate none s := by
  cases start with
  | fresh config certificate rng rng' entropy now autoMode =>
      exact ⟨rfl, rfl, fun _ => rfl, fun later => absurd rfl later⟩

/-- In every run of a server that no call finds at the ServerHello, the messages keep to the
hello that was accepted. -/
theorem traced_settled (start : Start s) (calls : List Call)
    (moves : Meets exec (fun s _ => s.state ≠ .sendServerHello) s calls) :
    Judged (judge s.engine.config s.engine.certificate) track none (traced exec choices s calls) :=
  traced_judged (fun _ _ _ kept other => exec_settled kept other) start.settled moves

end Handlers

end Server

end Dimpl.Dtls13
