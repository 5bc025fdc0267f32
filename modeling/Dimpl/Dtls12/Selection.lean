import Dimpl.Dtls12.Engine.Posture
import Dimpl.Dtls12.Terms
import Dimpl.Lib.Rounds
import Dimpl.Offer

/-!
# What a server selects

A server answers a hello with a suite, a group, a signature algorithm and a profile. Suite,
group and profile are taken out of the lists of the client. The signature algorithm is
where there is one that fits the key.
-/

namespace Dimpl.Dtls12

open Nom Program

/-- A number stands in the list of an extension of the type. -/
def Listed (extensions : List Extension) (buffer : Bytes) (type : ExtensionType) (code : Nat) : Prop :=
  ∃ ext ∈ extensions, ext.extensionType = type ∧ code ∈ listed (ext.extensionData buffer)

instance {extensions : List Extension} {buffer : Bytes} {type : ExtensionType} {code : Nat} :
    Decidable (Listed extensions buffer type code) :=
  inferInstanceAs (Decidable (∃ ext ∈ extensions, _ ∧ _))

theorem Listed.mono {extensions more : List Extension} {buffer : Bytes} {type : ExtensionType}
    {code : Nat} (isListed : Listed extensions buffer type code) (subset : extensions ⊆ more) :
    Listed more buffer type code := by
  obtain ⟨ext, member, found⟩ := isListed
  exact ⟨ext, subset member, found⟩

namespace ClientHello

/-- The client sent an extension of the type. -/
def Sends (hello : ClientHello) (type : ExtensionType) : Prop :=
  ∃ ext ∈ hello.extensions, ext.extensionType = type

/-- The client sent the number in its list. -/
def Lists (hello : ClientHello) (buffer : Bytes) (type : ExtensionType) (code : Nat) : Prop :=
  Listed hello.extensions buffer type code

/-- Where the client sent the list, the number is in it. -/
def Offers (hello : ClientHello) (buffer : Bytes) (type : ExtensionType) (code : Nat) : Prop :=
  hello.Sends type → hello.Lists buffer type code

instance {hello : ClientHello} {type : ExtensionType} : Decidable (hello.Sends type) :=
  inferInstanceAs (Decidable (∃ ext ∈ hello.extensions, _))

instance {hello : ClientHello} {buffer : Bytes} {type : ExtensionType} {code : Nat} :
    Decidable (hello.Lists buffer type code) :=
  inferInstanceAs (Decidable (Listed _ _ _ _))

/-- The signature algorithms that the server keeps of the client's. -/
def signatureAlgorithms (hello : ClientHello) (buffer : Bytes) :
    Option (List SignatureAndHashAlgorithm) :=
  match Server.Offers.collect buffer hello.extensions with
  | .ok offers => offers.signatureAlgorithms
  | .error _ => none

/-- The client sent no signature algorithms, or among them that of the key, or one for the
key with a hash of the two that can be signed with. -/
def Fits (hello : ClientHello) (buffer : Bytes) (key : SigningKey) : Prop :=
  hello.Sends .signatureAlgorithms →
    hello.Lists buffer .signatureAlgorithms
      (SignatureAndHashAlgorithm.asU16 ⟨key.hashAlgorithm, key.algorithm⟩) ∨
    ∃ algorithm ∈ (hello.signatureAlgorithms buffer).getD [],
      algorithm.signature = key.algorithm ∧
        (algorithm.hash = .sha256 ∨ algorithm.hash = .sha384) ∧
          algorithm.hash ∈ key.supportedHashAlgorithms

end ClientHello

namespace Server

section Extensions

variable {extensions : List Extension} {buffer : Bytes} {type : ExtensionType} {code : Nat}

theorem parseSupportedGroups_listed {data rest : Bytes} {groups : List NamedGroup}
    (parsed : Nom.parse parseSupportedGroups data = .ok (groups, rest)) :
    ∀ group ∈ groups, group.asU16 ∈ listed data := by
  obtain ⟨length, middle, isLength, parsed⟩ := bind_ok parsed
  obtain ⟨_, middle', required, parsed⟩ := bind_ok parsed
  rw [(require_ok required).2] at parsed
  obtain ⟨list, _, taken, parsed⟩ := bind_ok parsed
  obtain ⟨_, _, _, parsed⟩ := bind_ok parsed
  obtain ⟨_, _, _, parsed⟩ := bind_ok parsed
  obtain ⟨found, _, folded, parsed⟩ := bind_ok parsed
  obtain ⟨rfl, _⟩ := pure_ok parsed
  rw [listed_of_take isLength taken]
  exact foldItems_codes NamedGroup.parse_readsCode (within_ok folded).1

theorem parseAlgorithm_readsCode :
    ReadsCode SignatureAndHashAlgorithm.parse SignatureAndHashAlgorithm.asU16 := by
  refine readsCode_beU16 fun value small => ?_
  simp only [SignatureAndHashAlgorithm.asU16, UInt8.toNat_ofNat']
  omega

theorem parseSignatureAlgorithms_listed {data rest : Bytes} {algorithms : List SignatureAndHashAlgorithm}
    (parsed : Nom.parse parseSignatureAlgorithms data = .ok (algorithms, rest)) :
    ∀ algorithm ∈ algorithms, algorithm.asU16 ∈ listed data := by
  obtain ⟨length, middle, isLength, parsed⟩ := bind_ok parsed
  obtain ⟨_, middle', required, parsed⟩ := bind_ok parsed
  rw [(require_ok required).2] at parsed
  obtain ⟨list, _, taken, parsed⟩ := bind_ok parsed
  obtain ⟨_, _, _, parsed⟩ := bind_ok parsed
  obtain ⟨_, _, _, parsed⟩ := bind_ok parsed
  obtain ⟨found, _, folded, parsed⟩ := bind_ok parsed
  obtain ⟨rfl, _⟩ := pure_ok parsed
  rw [listed_of_take isLength taken]
  exact foldItems_codes parseAlgorithm_readsCode (within_ok folded).1

/-- What is kept of the extensions stands in them, and a list of groups or profiles that is
missing was not sent. -/
structure Offers.Sound (offers : Offers) (seen : List Extension) (buffer : Bytes) : Prop where
  profiles : ∀ profiles, offers.srtpProfiles = some profiles →
    ∀ profile ∈ profiles, Listed seen buffer .useSrtp profile.asU16
  groups : ∀ groups, offers.supportedGroups = some groups →
    ∀ group ∈ groups, Listed seen buffer .supportedGroups group.asU16
  noGroups : offers.supportedGroups = none → ∀ ext ∈ seen, ext.extensionType ≠ .supportedGroups
  algorithms : ∀ algorithms, offers.signatureAlgorithms = some algorithms →
    ∀ algorithm ∈ algorithms, Listed seen buffer .signatureAlgorithms algorithm.asU16

theorem Offers.Sound.empty : Offers.Sound ⟨false, none, none, none⟩ [] buffer where
  profiles := fun _ isSome => by cases isSome
  groups := fun _ isSome => by cases isSome
  noGroups := fun _ _ member => by cases member
  algorithms := fun _ isSome => by cases isSome

/-- An extension that leaves the lists alone. -/
theorem Offers.Sound.skip {offers : Offers} {ext : Extension} (sound : offers.Sound extensions buffer)
    (other : ext.extensionType ≠ .supportedGroups) : offers.Sound (extensions ++ [ext]) buffer where
  profiles := fun profiles isSome profile member =>
    (sound.profiles profiles isSome profile member).mono (List.subset_append_left _ _)
  groups := fun groups isSome group member =>
    (sound.groups groups isSome group member).mono (List.subset_append_left _ _)
  noGroups := fun isNone found member => by
    rcases List.mem_append.mp member with old | new
    · exact sound.noGroups isNone found old
    · cases List.mem_singleton.mp new
      exact other
  algorithms := fun algorithms isSome algorithm member =>
    (sound.algorithms algorithms isSome algorithm member).mono (List.subset_append_left _ _)

theorem Offers.Sound.add {offers offers' : Offers} {ext : Extension}
    (sound : offers.Sound extensions buffer) (added : offers.add ext buffer = .ok offers') :
    offers'.Sound (extensions ++ [ext]) buffer := by
  have here : ∀ {code : Nat}, code ∈ listed (ext.extensionData buffer) →
      Listed (extensions ++ [ext]) buffer ext.extensionType code :=
    fun found => ⟨ext, by simp, rfl, found⟩
  unfold Offers.add at added
  dsimp only at added
  split at added
  · rename_i isType
    have other : ext.extensionType ≠ .supportedGroups := by
      rw [isType]
      decide
    cases parsed : Nom.parse UseSrtpExtension.parse (ext.extensionData buffer) with
    | error err => simp [parsed, bind, Except.bind] at added
    | ok result =>
        simp only [parsed, bind, Except.bind, pure, Except.pure, Except.ok.injEq] at added
        subst added
        refine { sound.skip other with profiles := ?_ }
        rintro profiles ⟨rfl⟩ profile member
        exact isType ▸ here (UseSrtpExtension.parse_listed parsed profile member)
  · split at added
    · rename_i isType
      have other : ext.extensionType ≠ .supportedGroups := by
        rw [isType]
        decide
      cases added
      exact { sound.skip other with }
    · split at added
      · rename_i isType
        cases parsed : Nom.parse parseSupportedGroups (ext.extensionData buffer) with
        | error err => simp [parsed, bind, Except.bind] at added
        | ok result =>
            simp only [parsed, bind, Except.bind, pure, Except.pure, Except.ok.injEq] at added
            subst added
            refine ⟨?_, ?_, nofun, ?_⟩
            · exact fun profiles isSome profile member =>
                (sound.profiles profiles isSome profile member).mono (List.subset_append_left _ _)
            · rintro groups ⟨rfl⟩ group member
              exact isType ▸ here (parseSupportedGroups_listed parsed group member)
            · exact fun algorithms isSome algorithm member =>
                (sound.algorithms algorithms isSome algorithm member).mono
                  (List.subset_append_left _ _)
      · rename_i notGroups
        split at added
        · cases parsed : Nom.parse parseEcPointFormats (ext.extensionData buffer) with
          | error err => simp [parsed, bind, Except.bind] at added
          | ok result =>
              simp only [parsed, bind, Except.bind, pure, Except.pure, Except.ok.injEq] at added
              subst added
              exact sound.skip notGroups
        · split at added
          · rename_i isType
            split at added
            · rename_i algorithms rest parsed
              cases added
              refine { sound.skip notGroups with algorithms := ?_ }
              rintro algorithms' ⟨rfl⟩ algorithm member
              exact isType ▸ here (parseSignatureAlgorithms_listed parsed algorithm member)
            · cases added
              exact sound.skip notGroups
          · cases added
            exact sound.skip notGroups

theorem Offers.Sound.collect {offers : Offers} (collected : Offers.collect buffer extensions = .ok offers) :
    offers.Sound extensions buffer := by
  have fold : ∀ (rest seen : List Extension) (start : Offers), start.Sound seen buffer →
      rest.foldlM (fun offers ext => offers.add ext buffer) start = .ok offers →
      offers.Sound (seen ++ rest) buffer := by
    intro rest
    induction rest with
    | nil =>
        intro seen start sound folded
        cases folded
        simpa using sound
    | cons ext rest inductionHypothesis =>
        intro seen start sound folded
        rw [List.foldlM_cons] at folded
        cases added : start.add ext buffer with
        | error err => simp [added, bind, Except.bind] at folded
        | ok next =>
            simp only [added, bind, Except.bind] at folded
            have result := inductionHypothesis (seen ++ [ext]) next (sound.add added) folded
            simpa using result
  simpa using fold extensions [] _ .empty collected

end Extensions

section Signature

variable {hello : ClientHello} {buffer : Bytes} {key : SigningKey}

/-- The algorithm that is chosen is one of the client's that fits the key, or else that of
the key. -/
theorem selectSkeSignatureAlgorithm_cases {algs : Option (List SignatureAndHashAlgorithm)}
    {sig : SignatureAlgorithm} {hash : HashAlgorithm} {hashes : List HashAlgorithm} :
    (selectSkeSignatureAlgorithm algs sig hash hashes ∈ algs.getD [] ∧
      ∃ algorithm ∈ algs.getD [], algorithm.signature = sig ∧
        (algorithm.hash = .sha256 ∨ algorithm.hash = .sha384) ∧ algorithm.hash ∈ hashes) ∨
    (selectSkeSignatureAlgorithm algs sig hash hashes = ⟨hash, sig⟩ ∧
      ¬∃ algorithm ∈ algs.getD [], algorithm.signature = sig ∧
        (algorithm.hash = .sha256 ∨ algorithm.hash = .sha384) ∧ algorithm.hash ∈ hashes) := by
  unfold selectSkeSignatureAlgorithm
  dsimp only
  -- Both orders of the hashes have the same two in them.
  have hashPref : ∀ hash', hash' ∈ (if hash = .sha384 then [.sha384, .sha256]
      else [.sha256, .sha384] : List HashAlgorithm) ↔ hash' = .sha256 ∨ hash' = .sha384 := by
    intro hash'
    split <;> simp [or_comm]
  generalize (if hash = .sha384 then [.sha384, .sha256] else [.sha256, .sha384] :
    List HashAlgorithm) = prefs at hashPref
  cases found : (List.filterMap (fun hash' => (algs.getD []).find? fun algorithm =>
      algorithm.signature = sig && algorithm.hash = hash')
      (prefs.filter fun hash' => hashes.contains hash')) with
  | nil =>
      refine .inr ⟨rfl, ?_⟩
      rintro ⟨algorithm, member, isSig, isHash, inHashes⟩
      have missing := List.filterMap_eq_nil_iff.mp found algorithm.hash
        (by simpa [hashPref] using ⟨isHash, inHashes⟩)
      have refused := List.find?_eq_none.mp missing algorithm member
      simp [isSig] at refused
  | cons chosen others =>
      have inCandidates : chosen ∈ chosen :: others := List.mem_cons_self
      rw [← found, List.mem_filterMap] at inCandidates
      obtain ⟨hash', inPref, isFound⟩ := inCandidates
      have isListed := List.mem_of_find?_eq_some isFound
      have chosenFits := List.find?_some isFound
      simp only [Bool.and_eq_true, decide_eq_true_eq] at chosenFits
      obtain ⟨inPrefs, inHashes⟩ := List.mem_filter.mp inPref
      refine .inl ⟨isListed, chosen, isListed, chosenFits.1, ?_, ?_⟩
      · exact chosenFits.2 ▸ (hashPref hash').mp inPrefs
      · rw [chosenFits.2]
        simpa using inHashes

/-- The client offered the algorithm that is chosen exactly if one of its algorithms fits. -/
theorem selectSkeSignatureAlgorithm_offered {offers : Offers}
    (collected : Offers.collect buffer hello.extensions = .ok offers) :
    hello.Offers buffer .signatureAlgorithms
      (selectSkeSignatureAlgorithm offers.signatureAlgorithms key.algorithm key.hashAlgorithm
        key.supportedHashAlgorithms).asU16 ↔ hello.Fits buffer key := by
  have kept : hello.signatureAlgorithms buffer = offers.signatureAlgorithms := by
    simp [ClientHello.signatureAlgorithms, collected]
  have sound := Offers.Sound.collect collected
  unfold ClientHello.Offers ClientHello.Fits
  rw [kept]
  refine forall_congr' fun sends => ?_
  rcases @selectSkeSignatureAlgorithm_cases offers.signatureAlgorithms key.algorithm
    key.hashAlgorithm key.supportedHashAlgorithms with ⟨member, fits⟩ | ⟨isNative, unfit⟩
  · refine ⟨fun _ => .inr fits, fun _ => ?_⟩
    cases isAlgs : offers.signatureAlgorithms with
    | none => simp [isAlgs] at member
    | some algs =>
        rw [isAlgs] at member
        exact sound.algorithms algs isAlgs _ member
  · rw [isNative]
    exact ⟨.inl, fun fits => fits.resolve_right unfit⟩

end Signature

/-- What matters to the choices of a server: a hello is accepted, and the two messages that
tell the choices are written, as they enter the transcript. -/
inductive Choice where
  | accepted (hello : ClientHello) (buffer : Bytes)
  | serverHello (message : Bytes)
  | keyExchange (message : Bytes)
  deriving DecidableEq

/-- What a program adds to the transcript. -/
def told {α : Type} (program : ServerM α) (s : Server) : Bytes :=
  (finalState program s).engine.transcript.drop s.engine.transcript.length

/-- The hello that is accepted, if one is. -/
def acceptedHello (s : Server) : List Choice :=
  match value? (withEngine (nextHandshake .clientHello)) s, value? awaitClientHello s with
  | some (some (handshake, buffer)), some .sendServerHello =>
    match handshake.body with
    | .clientHello hello => [.accepted hello buffer]
    | _ => []
  | _, _ => []

/-- What the handler of a state does. -/
def roundChoices (s : Server) : List Choice :=
  match s.state with
  | .awaitClientHello => s.acceptedHello
  | .sendServerHello => [.serverHello (told sendServerHello s)]
  | .sendServerKeyExchange => [.keyExchange (told sendServerKeyExchange s)]
  | _ => []

/-- The handlers of a server. -/
def machine : Machine Fault Server State where
  state := Server.state
  enter := fun next s => { s with state := next }
  handler := State.makeProgress

/-- What `handle_timeout` does in front of `make_progress`. -/
def tick (now : Instant) : ServerM Unit := do
  modify fun (s : Server) => { s with lastNow := now }
  initRandom now
  withEngine (Engine.handleTimeout now)

/-- What a call does. -/
def choices (s : Server) : Call → List Choice
  | .handlePacket packet =>
    following (withEngine (receivePacket packet)) (machine.rounds roundChoices 20) s
  | .handleTimeout now => following (tick now) (machine.rounds roundChoices 20) s
  | _ => []

/-- The suite and the profile of a ServerHello are the client's. -/
def HelloWithin (hello : ClientHello) (buffer message : Bytes) : Prop :=
  ∃ (header : Header) (random : Random) (sessionId : Bytes) (suite : Dtls12CipherSuite)
    (profile : Option SrtpProfile),
    message = header.serializeFragment (ServerHello.serialize
      { serverVersion := .dtls12, random, sessionId, cipherSuite := suite
        compressionMethod := .null
        extensions := some (Extension.layout (serverHelloExtensions profile)).1 }
      (Extension.layout (serverHelloExtensions profile)).2) ∧
    suite ∈ hello.cipherSuites ∧
    ∀ chosen, profile = some chosen → hello.Lists buffer .useSrtp chosen.asU16

/-- The group of a ServerKeyExchange is the client's, and so is the signature algorithm if
and only if one of the client's fits the key. With a pre-shared key there is neither. -/
def KeyExchangeWithin (auth : AuthMode) (hello : ClientHello) (buffer message : Bytes) : Prop :=
  (∃ (header : Header) (hint : Bytes), (∃ suite ∈ hello.cipherSuites, suite.isPsk = true) ∧
    message = header.serializeFragment (be16 hint.length ++ hint)) ∨
  ∃ (header : Header) (group : NamedGroup) (publicKey : Bytes)
    (algorithm : SignatureAndHashAlgorithm) (signature : Bytes) (certificate : DtlsCertificate),
    message = header.serializeFragment (EcdhParams.serializeBytes 3 group publicKey ++
      DigitallySigned.serializeBytes algorithm signature) ∧
    auth = .certificate certificate ∧
    hello.Offers buffer .supportedGroups group.asU16 ∧
    (hello.Offers buffer .signatureAlgorithms algorithm.asU16 ↔
      hello.Fits buffer certificate.signingKey)

/-- Whether a message keeps to the hello that was accepted. -/
def judge (auth : AuthMode) : Option (ClientHello × Bytes) → Choice → Prop
  | _, .accepted _ _ => True
  | some (hello, buffer), .serverHello message => message = [] ∨ HelloWithin hello buffer message
  | some (hello, buffer), .keyExchange message =>
    message = [] ∨ KeyExchangeWithin auth hello buffer message
  | none, _ => False

/-- The hello that was accepted last. -/
def track : Option (ClientHello × Bytes) → Choice → Option (ClientHello × Bytes)
  | _, .accepted hello buffer => some (hello, buffer)
  | accepted, _ => accepted

section Written

variable {e : Engine} {s : Server} {P : Bytes → Prop}

/-- The transcript is the same, or a message of `P` was added. -/
def Adds (P : Bytes → Prop) (e e' : Engine) : Prop :=
  e'.transcript = e.transcript ∨ ∃ message, P message ∧ e'.transcript = e.transcript ++ message

theorem told_of_adds {α : Type} {program : ServerM α}
    (adds : Post program s (fun _ s' => Adds P s.engine s'.engine) fun _ s' => Adds P s.engine s'.engine) :
    told program s = [] ∨ P (told program s) := by
  rcases post_state.mp adds with same | ⟨message, holds, isAdded⟩
  · exact .inl (by simp [told, same])
  · exact .inr (by simpa [told, isAdded] using holds)

/-- A message enters the transcript before it is cut into records. -/
theorem createHandshake_adds {type : MessageType} {writeBody : EngineM Bytes}
    (writes : Post writeBody e
      (fun body e' => e'.transcript = e.transcript ∧ ∀ header : Header, P (header.serializeFragment body))
      fun _ e' => e'.transcript = e.transcript) :
    Post (createHandshake type writeBody) e (fun _ e' => Adds P e e') fun _ e' => Adds P e e' := by
  unfold createHandshake
  rw [post_bind]
  refine writes.mono (fun body e₁ written => ?_) fun _ _ same => .inl same
  obtain ⟨same, holds⟩ := written
  rw [post_bind, post_get, post_bind, post_set]
  have rest : Along (Keeps Engine.transcript) (do
      let fixedOverhead ← handshakeOverhead type.epoch
      createFragments
        { msgType := type, length := body.length, messageSeq := e₁.nextHandshakeSeqNo,
          fragmentOffset := 0, fragmentLength := body.length }
        type.epoch fixedOverhead body (fragmentRounds e₁ body) 0) := by
    refine along_bind handshakeOverhead_readOnly.along fun _ => ?_
    exact createFragments_posture.mono fun _ _ kept => congrArg Posture.transcript kept
  refine (rest _).mono (fun _ e₂ kept => ?_) fun _ e₂ kept => ?_
  · exact .inr ⟨_, holds _, by rw [← same]; exact kept⟩
  · exact .inr ⟨_, holds _, by rw [← same]; exact kept⟩

theorem withContext_transcript {α : Type} {program : ContextM α} :
    Along (Keeps Engine.transcript) (withContext program) := by
  intro e
  unfold withContext
  rw [post_zoom]
  exact post_self.mono (fun _ _ _ => rfl) fun _ _ _ => rfl

end Written

/-- What the terms have from a hello. -/
structure Agreed (hello : ClientHello) (buffer : Bytes) (terms : Terms) : Prop where
  suite : ∃ suite ∈ hello.cipherSuites, terms.ground.cipherSuite = some suite
  profile : ∀ profile, terms.profile = some profile → hello.Lists buffer .useSrtp profile.asU16
  offers : ∃ offers, Offers.collect buffer hello.extensions = .ok offers ∧
    terms.groups = offers.supportedGroups ∧ terms.algorithms = offers.signatureAlgorithms

/-- Until a hello is accepted there is no profile; from then on the terms are those of the
hello. -/
structure Settled (auth : AuthMode) (accepted : Option (ClientHello × Bytes)) (s : Server) : Prop where
  auth : s.engine.cryptoContext.auth = auth
  fresh : s.state = .awaitClientHello → s.negotiatedSrtpProfile = none
  agreed : s.state ≠ .awaitClientHello → s.state ≠ .closed →
    ∃ hello buffer, accepted = some (hello, buffer) ∧ Agreed hello buffer s.terms

section Handlers

variable {auth : AuthMode} {accepted : Option (ClientHello × Bytes)} {s : Server}
  {hello : ClientHello} {buffer : Bytes}

/-- The profile of the server's preference is one of the client's. -/
theorem selectProfile_mem {profiles : List SrtpProfile} {profile : SrtpProfile}
    (selected : selectProfile profiles = some profile) : profile ∈ profiles := by
  have contains := List.find?_some selected
  simpa using contains

theorem acceptClientHello_agreed (fresh : s.negotiatedSrtpProfile = none) :
    Post (acceptClientHello hello buffer) s
      (fun next s' => next = .sendServerHello ∧
        s'.engine.cryptoContext.auth = s.engine.cryptoContext.auth ∧ Agreed hello buffer s'.terms)
      fun _ s' => s'.engine.cryptoContext.auth = s.engine.cryptoContext.auth ∧
        s'.negotiatedSrtpProfile = none := by
  unfold acceptClientHello withEngine setCipherSuite
  rw [post_bind, post_get, post_bind, post_orThrow]
  refine ⟨fun suite found => ?_, fun _ => ⟨rfl, fresh⟩⟩
  have isOffered := List.mem_of_find?_eq_some found
  rw [post_bind, post_zoom, post_bind, post_get, post_bind, post_orThrow]
  refine ⟨fun supported _ => ?_, fun _ => ⟨rfl, fresh⟩⟩
  rw [post_set, post_bind, post_modify]
  split
  · exact ⟨rfl, fresh⟩
  · rename_i offers collected
    rw [post_ite]
    refine ⟨fun _ => ⟨rfl, fresh⟩, fun _ => ?_⟩
    rw [post_bind, post_modify]
    refine ⟨rfl, rfl, ⟨suite, isOffered, rfl⟩, fun profile isProfile => ?_, offers, collected, rfl, rfl⟩
    have sound := Offers.Sound.collect collected
    cases isProfiles : offers.srtpProfiles with
    | none => simp [terms, isProfiles, fresh] at isProfile
    | some profiles =>
        simp only [terms, isProfiles] at isProfile
        exact sound.profiles profiles isProfiles profile (selectProfile_mem isProfile)

theorem sendHelloVerifyRequest_auth {random : Random} :
    Along (Keeps fun s : Server => (s.engine.cryptoContext.auth, s.negotiatedSrtpProfile))
      (sendHelloVerifyRequest random) := by
  have engine : ∀ {α : Type} {program : EngineM α}, Along (Keeps Engine.ground) program →
      Along (Keeps fun s : Server => (s.engine.cryptoContext.auth, s.negotiatedSrtpProfile))
        (withEngine program) := fun keeps =>
    along_zoom keeps fun s e same => congrArg (·, s.negotiatedSrtpProfile) (congrArg Ground.auth same)
  refine along_bind along_get fun s => along_bind along_liftCrypto fun cookie => ?_
  refine along_bind (engine (ground_of_moves flightBegin_moves)) fun _ => ?_
  refine along_bind (engine (createHandshake_ground along_pure)) fun _ => ?_
  exact along_bind (engine (along_modify fun _ => rfl)) fun _ => along_pure

/-- Where a hello leads. -/
theorem handleClientHello_agreed (fresh : s.negotiatedSrtpProfile = none) :
    Post (handleClientHello hello buffer) s
      (fun next s' => s'.engine.cryptoContext.auth = s.engine.cryptoContext.auth ∧
        (next = .awaitClientHello ∧ s'.negotiatedSrtpProfile = none ∨
          next = .sendServerHello ∧ Agreed hello buffer s'.terms))
      fun _ s' => s'.engine.cryptoContext.auth = s.engine.cryptoContext.auth ∧
        s'.negotiatedSrtpProfile = none := by
  unfold handleClientHello
  rw [post_bind, post_get, post_ite]
  refine ⟨fun _ => ⟨rfl, fresh⟩, fun _ => ?_⟩
  rw [post_ite]
  refine ⟨fun _ => ⟨rfl, fresh⟩, fun _ => ?_⟩
  rw [post_ite]
  refine ⟨fun _ => ?_, fun _ => ?_⟩
  · have stays : Returns (fun next => next = State.awaitClientHello)
        (sendHelloVerifyRequest hello.random) :=
      returns_bind fun _ => returns_bind fun _ => returns_bind fun _ => returns_bind fun _ =>
        returns_bind fun _ => returns_pure rfl
    refine ((sendHelloVerifyRequest_auth s).and (stays s)).mono (fun next s' both => ?_)
      fun _ s' both => ?_
    · obtain ⟨same, isStay⟩ := both
      exact ⟨congrArg Prod.fst same, .inl ⟨isStay, (congrArg Prod.snd same).trans fresh⟩⟩
    · exact ⟨congrArg Prod.fst both.1, (congrArg Prod.snd both.1).trans fresh⟩
  · exact (acceptClientHello_agreed fresh).mono
      (fun _ _ agreed => ⟨agreed.2.1, .inr ⟨agreed.1, agreed.2.2⟩⟩) fun _ _ kept => kept

/-- A hello that is accepted is the one the handler finds. -/
theorem acceptedHello_of {next : State} {s' : Server} {handshake : Handshake} {engine : Server}
    (found : withEngine (nextHandshake .clientHello) s = .ok (some (handshake, buffer)) engine)
    (ok : awaitClientHello s = .ok next s') (isHello : handshake.body = .clientHello hello) :
    s.acceptedHello = if next = .sendServerHello then [.accepted hello buffer] else [] := by
  unfold acceptedHello
  rw [value_of_ok found, value_of_ok ok]
  cases next <;> simp [isHello]

theorem acceptedHello_stay {s' : Server} {next : State} (ok : awaitClientHello s = .ok next s')
    (stays : next ≠ .sendServerHello) : s.acceptedHello = [] := by
  unfold acceptedHello
  rw [value_of_ok ok]
  split
  · rename_i isNext
    cases isNext
    exact absurd rfl stays
  · rfl

theorem acceptedHello_error {s' : Server} {fault : Fault} (failed : awaitClientHello s = .error fault s') :
    s.acceptedHello = [] := by
  unfold acceptedHello value?
  rw [failed]
  split <;> simp_all

/-- The handler of the hello. -/
theorem awaitClientHello_settled (settled : Settled auth accepted s) (isHello : s.state = .awaitClientHello) :
    Post awaitClientHello s
      (fun next s' => s'.engine.cryptoContext.auth = auth ∧ s'.state = s.state ∧
        (next = .awaitClientHello ∧ s'.negotiatedSrtpProfile = none ∨
          next = .sendServerHello ∧ ∃ hello buffer, s.acceptedHello = [.accepted hello buffer] ∧
            Agreed hello buffer s'.terms))
      fun _ s' => s'.engine.cryptoContext.auth = auth ∧ s'.state = s.state ∧
        s'.negotiatedSrtpProfile = none := by
  have fresh := settled.fresh isHello
  have quiet : Along (Quiet (fun _ => True) False) (nextHandshake .clientHello) := nextHandshake_quiet
  have state : Along (Keeps Server.state) awaitClientHello :=
    awaitClientHello_within.mono fun _ _ (within : Within .hello False False _ _) => within.state
  -- What the handler finds is the hello that counts as accepted.
  have post : Post awaitClientHello s
      (fun next s' => s'.engine.cryptoContext.auth = auth ∧
        (next = .awaitClientHello ∧ s'.negotiatedSrtpProfile = none ∨
          next = .sendServerHello ∧ ∃ hello buffer handshake engine,
            withEngine (nextHandshake .clientHello) s = .ok (some (handshake, buffer)) engine ∧
            handshake.body = .clientHello hello ∧ Agreed hello buffer s'.terms))
      fun _ s' => s'.engine.cryptoContext.auth = auth ∧ s'.negotiatedSrtpProfile = none := by
    unfold awaitClientHello onHandshake
    rw [post_bind]
    refine ((withEngine_terms (ground_of_quiet quiet) s).and post_self).mono
      (fun found s₁ both => ?_) fun _ s₁ both => ?_
    · obtain ⟨kept, isFound⟩ := both
      have sameAuth : s₁.engine.cryptoContext.auth = auth :=
        (congrArg (fun t : Terms => t.ground.auth) kept).trans settled.auth
      have stillFresh : s₁.negotiatedSrtpProfile = none := (congrArg Terms.profile kept).trans fresh
      cases found with
      | none => exact ⟨sameAuth, .inl ⟨rfl, stillFresh⟩⟩
      | some message =>
          obtain ⟨handshake, buffer⟩ := message
          dsimp only
          split
          · rename_i hello isBody
            refine (handleClientHello_agreed stillFresh).mono (fun next s₂ handled => ?_)
              fun _ s₂ failed => ⟨failed.1.trans sameAuth, failed.2⟩
            refine ⟨handled.1.trans sameAuth, handled.2.imp_right fun agreed => ?_⟩
            exact ⟨agreed.1, hello, buffer, handshake, s₁, isFound, isBody, agreed.2⟩
          · exact ⟨sameAuth, stillFresh⟩
    · exact ⟨(congrArg (fun t : Terms => t.ground.auth) both.1).trans settled.auth,
        (congrArg Terms.profile both.1).trans fresh⟩
  refine ((state s).and (post.and post_self)).mono (fun next s' all => ?_) fun _ s' all => ?_
  · obtain ⟨sameState, ⟨sameAuth, outcome⟩, ok⟩ := all
    refine ⟨sameAuth, sameState, outcome.imp_right ?_⟩
    rintro ⟨rfl, hello, buffer, handshake, engine, isFound, isBody, agreed⟩
    exact ⟨rfl, hello, buffer, by simp [acceptedHello_of isFound ok isBody], agreed⟩
  · exact ⟨all.2.1.1, all.1, all.2.1.2⟩

/-- The ServerHello of a server that has agreed. -/
theorem sendServerHello_chosen (agreed : Agreed hello buffer s.terms) :
    told sendServerHello s = [] ∨ HelloWithin hello buffer (told sendServerHello s) := by
  obtain ⟨suite, isOffered, isSuite⟩ := agreed.suite
  apply told_of_adds
  unfold sendServerHello withEngine
  rw [post_bind, post_zoom, post_modify, post_bind, post_get, post_bind, post_orThrow]
  refine ⟨fun random _ => ?_, fun _ => .inl rfl⟩
  rw [post_bind, post_zoom]
  have writes : Post (createServerHello random (s.sessionId.getD []) s.negotiatedSrtpProfile)
      s.engine.flightBegin
      (fun body e' => e'.transcript = s.engine.flightBegin.transcript ∧
        ∀ header : Header, HelloWithin hello buffer (header.serializeFragment body))
      fun _ e' => e'.transcript = s.engine.flightBegin.transcript := by
    unfold createServerHello
    rw [post_bind, post_get, post_bind, post_orThrow]
    refine ⟨fun chosen isChosen => ⟨rfl, fun header => ?_⟩, fun _ => rfl⟩
    have isSame : suite = chosen := by
      have here : s.engine.cipherSuite = some chosen := isChosen
      have there : s.engine.cipherSuite = some suite := isSuite
      rw [there] at here
      exact Option.some.inj here
    subst isSame
    exact ⟨header, random, _, suite, s.negotiatedSrtpProfile, rfl, isOffered, agreed.profile⟩
  refine (createHandshake_adds writes).mono (fun _ e₁ adds => ?_) fun _ e₁ adds => adds
  rw [post_bind, post_zoom]
  refine (selectedCipherSuite_readOnly e₁).mono (fun _ e₂ same => ?_) fun _ e₂ same => ?_
  · rw [post_pure]
    exact same ▸ adds
  · exact same ▸ adds

/-- The group of a server that has agreed. -/
theorem selectNamedGroup_offered (agreed : Agreed hello buffer s.terms) {groups : List NamedGroup}
    {group : NamedGroup} (selected : selectNamedGroup s.clientSupportedGroups groups = some group) :
    hello.Offers buffer .supportedGroups group.asU16 := by
  obtain ⟨offers, collected, isGroups, _⟩ := agreed.offers
  have sound := Offers.Sound.collect collected
  have isGroups : s.clientSupportedGroups = offers.supportedGroups := isGroups
  rw [isGroups] at selected
  intro sends
  cases isOffers : offers.supportedGroups with
  | none =>
      obtain ⟨ext, member, isType⟩ := sends
      exact absurd isType (sound.noGroups isOffers ext member)
  | some offered =>
      rw [isOffers] at selected
      have contains := List.find?_some selected
      exact sound.groups offered isOffers group (by simpa using contains)

/-- The ServerKeyExchange of a server that has agreed. -/
theorem sendServerKeyExchange_chosen (agreed : Agreed hello buffer s.terms)
    (isAuth : s.engine.cryptoContext.auth = auth) :
    told sendServerKeyExchange s = [] ∨
      KeyExchangeWithin auth hello buffer (told sendServerKeyExchange s) := by
  obtain ⟨suite, isOffered, isSuite⟩ := agreed.suite
  have isSuite : s.engine.cipherSuite = some suite := isSuite
  apply told_of_adds
  unfold sendServerKeyExchange withEngine selectedCipherSuite
  rw [post_bind, post_zoom, post_bind, post_get, post_orThrow]
  refine ⟨fun chosen isChosen => ?_, fun _ => .inl rfl⟩
  rw [isSuite] at isChosen
  cases isChosen
  rw [post_ite]
  refine ⟨fun isPsk => ?_, fun _ => ?_⟩
  · unfold sendServerKeyExchangePsk withEngine
    rw [post_bind, post_get]
    split
    · exact .inl rfl
    · rename_i hint _
      rw [post_bind, post_zoom]
      refine (createHandshake_adds (post_pure.mpr ⟨rfl, fun header => ?_⟩)).mono
        (fun _ _ adds => adds) fun _ _ adds => adds
      exact .inl ⟨header, hint, ⟨suite, isOffered, isPsk⟩, rfl⟩
  · unfold sendServerKeyExchangeEcdhe withEngine
    rw [post_bind, post_get, post_bind, post_orThrow]
    refine ⟨fun clientRandom _ => ?_, fun _ => .inl rfl⟩
    rw [post_bind, post_orThrow]
    refine ⟨fun serverRandom _ => ?_, fun _ => .inl rfl⟩
    rw [post_bind, post_orThrow]
    refine ⟨fun group isGroup => ?_, fun _ => .inl rfl⟩
    dsimp only
    rw [post_bind, post_orThrow]
    refine ⟨fun ourSig isSig => ?_, fun _ => .inl rfl⟩
    rw [post_bind, post_orThrow]
    refine ⟨fun ourHash isHash => ?_, fun _ => .inl rfl⟩
    rw [post_bind, post_zoom]
    -- Only a certificate has a signature algorithm.
    cases isCertificate : s.engine.cryptoContext.auth with
    | psk => simp [CryptoContext.signatureAlgorithm, isCertificate] at isSig
    | certificate certificate =>
        have isSig : ourSig = certificate.signingKey.algorithm := by
          simpa [CryptoContext.signatureAlgorithm, isCertificate, eq_comm] using isSig
        have isHash : ourHash = certificate.signingKey.hashAlgorithm := by
          simpa [CryptoContext.privateKeyDefaultHashAlgorithm, isCertificate, eq_comm] using isHash
        have isHashes : s.engine.cryptoContext.privateKeySupportedHashAlgorithms =
            certificate.signingKey.supportedHashAlgorithms := by
          simp [CryptoContext.privateKeySupportedHashAlgorithms, isCertificate]
        obtain ⟨offers, collected, _, isAlgorithms⟩ := agreed.offers
        have isAlgorithms : s.clientSignatureAlgorithms = offers.signatureAlgorithms := isAlgorithms
        have groupOffered := selectNamedGroup_offered agreed isGroup
        have fits : _ ↔ hello.Fits buffer certificate.signingKey :=
          selectSkeSignatureAlgorithm_offered collected
        rw [isSig, isHash, isHashes, isAlgorithms]
        refine (createHandshake_adds ?_).mono (fun _ _ adds => adds) fun _ _ adds => adds
        unfold createServerKeyExchange
        rw [post_bind]
        refine (selectedCipherSuite_readOnly _).mono (fun _ e₁ same => ?_) fun _ _ same => same ▸ rfl
        subst same
        split
        · rw [post_bind, post_get, post_bind]
          refine (withContext_transcript _).mono (fun publicKey e₂ same => ?_) fun _ _ same => same
          rw [post_bind]
          refine (withContext_transcript _).mono (fun signature e₃ same' => ?_)
            fun _ _ same' => same'.trans same
          refine ⟨same'.trans same, fun header => .inr ?_⟩
          exact ⟨header, group, publicKey, _, signature, certificate, rfl,
            isAuth.symm.trans isCertificate, groupOffered, fits⟩
        · rfl

/-- The choices of a server that has agreed keep to the hello. -/
theorem roundChoices_judged (settled : Settled auth accepted s) (later : s.state ≠ .awaitClientHello) :
    Judged (judge auth) track accepted s.roundChoices ∧ s.roundChoices.foldl track accepted = accepted := by
  by_cases isClosed : s.state = .closed
  · simp [roundChoices, isClosed, Judged]
  · obtain ⟨hello, buffer, rfl, agreed⟩ := settled.agreed later isClosed
    unfold roundChoices
    split
    · rename_i isHello
      exact absurd isHello later
    · exact ⟨⟨sendServerHello_chosen agreed, trivial⟩, rfl⟩
    · exact ⟨⟨sendServerKeyExchange_chosen agreed settled.auth, trivial⟩, rfl⟩
    · exact ⟨trivial, rfl⟩

theorem Settled.of_terms {s' : Server} (settled : Settled auth accepted s) (same : s'.terms = s.terms)
    (state : s'.state = s.state) : Settled auth accepted s' where
  auth := (congrArg (fun t : Terms => t.ground.auth) same).trans settled.auth
  fresh := fun isHello => (congrArg Terms.profile same).trans (settled.fresh (state ▸ isHello))
  agreed := fun later notClosed => by
    rw [same]
    rw [state] at later notClosed
    exact settled.agreed later notClosed

/-- No state leads back to the hello. -/
theorem follows_later {state next : State} (isNext : next ∈ state :: state.follows)
    (later : state ≠ .awaitClientHello) : next ≠ .awaitClientHello ∧ (state = .closed → next = .closed) := by
  revert next
  cases state <;> first | exact absurd rfl later | decide

/-- One round keeps to the hello. -/
theorem round_settled (settled : Settled auth accepted s) :
    Judged (judge auth) track accepted s.roundChoices ∧
      Post (s.state.makeProgress) s
        (fun next s' =>
          if next = s.state then Settled auth (s.roundChoices.foldl track accepted) s'
          else Settled auth (s.roundChoices.foldl track accepted) { s' with state := next })
        fun _ s' => Settled auth (s.roundChoices.foldl track accepted) s' := by
  by_cases isHello : s.state = .awaitClientHello
  · have isActs : s.roundChoices = s.acceptedHello := by simp [roundChoices, isHello]
    have post := (awaitClientHello_settled settled isHello).and post_self
    rw [isActs, isHello]
    refine ⟨?_, ?_⟩
    · unfold acceptedHello
      split
      · split
        · exact ⟨trivial, trivial⟩
        · trivial
      · trivial
    · refine post.mono (fun next s' both => ?_) fun fault s' both => ?_
      · obtain ⟨⟨sameAuth, sameState, outcome⟩, ok⟩ := both
        rcases outcome with ⟨rfl, isFresh⟩ | ⟨rfl, hello, buffer, isAccepted, agreed⟩
        · rw [acceptedHello_stay ok (by decide), if_pos rfl]
          exact ⟨sameAuth, fun _ => isFresh, fun later => absurd (sameState.trans isHello) later⟩
        · rw [isAccepted, if_neg (by decide)]
          exact ⟨sameAuth, by simp, fun _ _ => ⟨hello, buffer, rfl, agreed⟩⟩
      · rw [acceptedHello_error both.2]
        exact ⟨both.1.1, fun _ => both.1.2.2, fun later => absurd (both.1.2.1.trans isHello) later⟩
  · obtain ⟨judged, isTracked⟩ := roundChoices_judged settled isHello
    refine ⟨judged, ?_⟩
    rw [isTracked]
    have state : Along (Keeps Server.state) s.state.makeProgress :=
      (makeProgress_within s.state).mono fun _ _ within => within.state
    refine ((handlers_terms isHello s).and ((state s).and (makeProgress_returns s.state s))).mono
      (fun next s' all => ?_) fun _ s' all => settled.of_terms all.1 all.2.1
    obtain ⟨same, sameState, isNext⟩ := all
    split
    · exact settled.of_terms same sameState
    · obtain ⟨later, closed⟩ := follows_later isNext isHello
      have kept := settled.of_terms same sameState
      refine ⟨kept.auth, fun isAwait => absurd isAwait later, fun _ notClosed => ?_⟩
      exact kept.agreed (sameState ▸ isHello) fun isClosed =>
        notClosed (closed (sameState ▸ isClosed))

theorem progressLoop_machine {fuel : Nat} : progressLoop fuel = machine.loop (.panic .assertion) fuel := by
  induction fuel with
  | zero => rfl
  | succ fuel inductionHypothesis =>
      unfold progressLoop Machine.loop
      rw [inductionHypothesis]
      rfl

/-- The rounds of a call. -/
theorem makeProgress_settled (settled : Settled auth accepted s) :
    Judged (judge auth) track accepted (machine.rounds roundChoices 20 s) ∧
      Settled auth ((machine.rounds roundChoices 20 s).foldl track accepted)
        (finalState makeProgress s) := by
  unfold makeProgress
  rw [progressLoop_machine]
  exact machine.loop_judged (fun _ _ kept => kept) (fun _ _ kept => round_settled kept) settled

theorem initRandom_terms {now : Instant} : Along (Keeps terms) (initRandom now) := by
  refine along_bind along_get fun s => ?_
  split
  · exact along_pure
  · refine along_bind (withEngine_terms (ground_of_moves newRandom_moves)) fun _ => ?_
    exact modify_terms fun _ => rfl

theorem withEngine_state {α : Type} {program : EngineM α} : Along (Keeps Server.state) (withEngine program) := by
  intro s
  unfold withEngine
  rw [post_zoom]
  exact post_self.mono (fun _ _ _ => rfl) fun _ _ _ => rfl

theorem initRandom_state {now : Instant} : Along (Keeps Server.state) (initRandom now) := by
  refine along_bind along_get fun s => ?_
  split
  · exact along_pure
  · exact along_bind withEngine_state fun _ => along_modify fun _ => rfl

theorem tick_terms {now : Instant} : Along (Keeps terms) (tick now) := by
  refine along_bind (modify_terms fun _ => rfl) fun _ => along_bind initRandom_terms fun _ => ?_
  exact withEngine_terms (ground_of_moves fun e => handleTimeout_moves trivial)

theorem tick_state {now : Instant} : Along (Keeps Server.state) (tick now) :=
  along_bind (along_modify fun _ => rfl) fun _ => along_bind initRandom_state fun _ =>
    withEngine_state

theorem pollOutput_terms {bufLen : Nat} : Along (Keeps terms) (Server.pollOutput bufLen) := by
  refine along_get_bind fun s => ?_
  split
  · rw [post_bind, post_set]
    exact (LocalEvent.intoOutput_readOnly.along).after rfl
  · exact withEngine_terms (ground_of_quiet pollOutput_quiet) s

theorem pollOutput_state {bufLen : Nat} : Along (Keeps Server.state) (Server.pollOutput bufLen) := by
  refine along_get_bind fun s => ?_
  split
  · rw [post_bind, post_set]
    exact (LocalEvent.intoOutput_readOnly.along).after rfl
  · exact withEngine_state s

theorem sendApplicationData_terms {data : Bytes} : Along (Keeps terms) (sendApplicationData data) := by
  refine along_get_bind fun s => ?_
  rw [post_ite]
  refine ⟨fun _ => rfl, fun _ => ?_⟩
  rw [post_ite]
  exact ⟨fun _ => rfl, fun _ => withEngine_terms createRecord_ground s⟩

theorem sendApplicationData_state {data : Bytes} :
    Along (Keeps Server.state) (sendApplicationData data) := by
  refine along_get_bind fun s => ?_
  rw [post_ite]
  refine ⟨fun _ => rfl, fun _ => ?_⟩
  rw [post_ite]
  exact ⟨fun _ => rfl, fun _ => withEngine_state s⟩

theorem Settled.after {α : Type} {program : ServerM α} (settled : Settled auth accepted s)
    (same : Along (Keeps terms) program) (state : Along (Keeps Server.state) program) :
    Post program s (fun _ s' => Settled auth accepted s') fun _ s' => Settled auth accepted s' :=
  ((same s).and (state s)).mono (fun _ _ both => settled.of_terms both.1 both.2)
    fun _ _ both => settled.of_terms both.1 both.2

/-- A call keeps to the hello. -/
theorem exec_settled {call : Call} (settled : Settled auth accepted s) :
    Judged (judge auth) track accepted (s.choices call) ∧
      Settled auth ((s.choices call).foldl track accepted) (s.exec call) := by
  cases call with
  | handlePacket packet =>
      have both := judged_following makeProgress
        (settled.after (@receivePacket_terms packet) withEngine_state)
        fun _ kept => makeProgress_settled kept
      refine ⟨both.1, ?_⟩
      show Settled auth _ (finalState (publicResult _) s)
      rw [finalState_publicResult]
      exact both.2
  | handleTimeout now =>
      have both := judged_following (publicResult makeProgress) (settled.after (@tick_terms now) tick_state)
        fun s' kept => by
          rw [finalState_publicResult]
          exact makeProgress_settled kept
      refine ⟨both.1, ?_⟩
      have parts : Server.handleTimeout now = (do tick now; publicResult makeProgress) := by
        simp only [tick, bind_assoc]
        rfl
      show Settled auth _ (finalState (Server.handleTimeout now) s)
      rw [parts]
      exact both.2
  | pollOutput bufLen =>
      refine ⟨trivial, post_state.mp ?_⟩
      exact post_bind.mpr (settled.after pollOutput_terms pollOutput_state)
  | sendApplicationData data =>
      refine ⟨trivial, post_state.mp ?_⟩
      exact settled.after sendApplicationData_terms sendApplicationData_state
  | close =>
      refine ⟨trivial, post_state.mp ?_⟩
      show Post close s _ _
      have closed : ∀ {s' : Server}, s'.engine.cryptoContext.auth = auth →
          Settled auth accepted { s' with state := .closed } := fun isAuth =>
        ⟨isAuth, by simp, fun _ notClosed => absurd rfl notClosed⟩
      unfold close
      rw [post_bind, post_get, post_ite]
      refine ⟨fun _ => settled, fun _ => ?_⟩
      rw [post_ite]
      refine ⟨fun _ => @closed { s with engine := s.engine.abort } settled.auth, fun _ => ?_⟩
      rw [post_bind]
      refine (settled.after (withEngine_terms createRecord_ground) withEngine_state).mono
        (fun _ s' kept => closed kept.auth) fun _ _ kept => kept

/-- A server that has accepted nothing yet. -/
theorem Start.settled (start : Start s) : Settled s.engine.cryptoContext.auth none s := by
  cases start with
  | fresh config auth rng rng' entropy now =>
      exact ⟨rfl, fun _ => rfl, fun later => absurd rfl later⟩

/-- In every run of a server the messages keep to the hello that was accepted. -/
theorem traced_settled (start : Start s) (calls : List Call) :
    Judged (judge s.engine.cryptoContext.auth) track none (traced exec choices s calls) := by
  have all : Meets exec (fun _ _ => True) s calls := .of_all fun _ _ => trivial
  exact traced_judged (fun _ _ _ kept _ => exec_settled kept) start.settled all

end Handlers

end Server

end Dimpl.Dtls12
