import Dimpl.Builder
import Dimpl.Dtls13.Retry

/-!
# The order of key exchange groups

A list of groups that is configured is said to put the most preferred group first. It is only asked
what it contains: the order is that of the provider, and so are the first key share of a client and the
group a server asks for.
-/

namespace Dimpl

open Nom Program

namespace Config

/-- The names of the configured groups, in order. -/
def groupNames (config : Config) : List NamedGroup := config.kxGroups.map SupportedKxGroup.name

/-- The provider has a group that this library knows. -/
def Provides (config : Config) (group : NamedGroup) : Prop :=
  ∃ kx ∈ config.cryptoProvider.supportedKxGroups, kx.name = group

/-- The most preferred group of a list among those that are available. -/
structure MostPreferred (groups : List NamedGroup) (available : NamedGroup → Prop) (group : NamedGroup) :
    Prop where
  listed : group ∈ groups
  isAvailable : available group
  first : ∀ other ∈ groups, available other → groups.idxOf group ≤ groups.idxOf other

/-- The provider has the groups of the list once each and in the order of the list. -/
def InOrder (config : Config) (groups : List NamedGroup) : Prop :=
  (config.cryptoProvider.supportedKxGroups.map SupportedKxGroup.name).Pairwise fun group other =>
    group ∈ groups → other ∈ groups → groups.idxOf group < groups.idxOf other

end Config

/-- A ClientHello whose key share is for the group. -/
def SharesFor (group : NamedGroup) (message : Bytes) : Prop :=
  ∃ publicKey, be16 Dtls13.ExtensionType.keyShare.asU16 ++
    be16 (Dtls13.serializeKeyShareClientHello [⟨group, ⟨0, publicKey.length⟩⟩] publicKey).length ++
    Dtls13.serializeKeyShareClientHello [⟨group, ⟨0, publicKey.length⟩⟩] publicKey <:+: message

/-- The list is honoured: what it names and the provider has is configured, each once and in the order of
the list, the key share of a client is for the first of these, and a server asks for the first of
these that the client has. -/
structure Honours (config : Config) (groups : List NamedGroup) : Prop where
  exactly : ∀ group, group ∈ config.groupNames ↔ group ∈ groups ∧ config.Provides group
  order : config.groupNames.Pairwise fun group other => groups.idxOf group < groups.idxOf other
  client : ∀ c : Dtls13.Client, c.engine.config = config → c.hrrSelectedGroup = none →
    Post Dtls13.Client.sendClientHello c
      (fun _ c' => Dtls13.Server.Adds (fun message => ∃ group,
        Config.MostPreferred groups config.Provides group ∧ SharesFor group message) c.engine c'.engine)
      fun _ _ => True
  server : ∀ (found : Dtls13.Server.HelloExtensions) group,
    Dtls13.Server.retryGroup config.groupNames found = some group →
    Config.MostPreferred groups (fun group => config.Provides group ∧ group ∈ found.groups.getD []) group

section Order

variable {config : Config} {groups : List NamedGroup}

/-- What is found in an ordered list is in front of all else that could be. -/
theorem find_first {α : Type} {R : α → α → Prop} {p : α → Bool} {list : List α} {value : α}
    (ordered : list.Pairwise R) (found : list.find? p = some value) :
    ∀ other ∈ list, p other = true → other = value ∨ R value other := by
  obtain ⟨_, before, after, rfl, missed⟩ := List.find?_eq_some_iff_append.mp found
  intro other member holds
  rcases List.mem_append.mp member with inFront | behind
  · have missed := missed other inFront
    simp [holds] at missed
  · rcases List.mem_cons.mp behind with rfl | later
    · exact .inl rfl
    · obtain ⟨ordered, _⟩ := List.pairwise_cons.mp (List.pairwise_append.mp ordered).2.1
      exact .inr (ordered other later)

theorem mem_groupNames (given : config.kxGroupFilter = some groups) {group : NamedGroup} :
    group ∈ config.groupNames ↔ group ∈ groups ∧ config.Provides group := by
  simp only [Config.groupNames, Config.kxGroups, Config.allowed, given, Config.Provides, List.mem_map,
    List.mem_filter, List.contains_iff_mem]
  constructor
  · rintro ⟨kx, ⟨provided, listed⟩, rfl⟩
    exact ⟨listed, kx, provided, rfl⟩
  · rintro ⟨listed, kx, provided, rfl⟩
    exact ⟨kx, ⟨provided, listed⟩, rfl⟩

theorem groupNames_pairwise (given : config.kxGroupFilter = some groups) :
    (config.groupNames.Pairwise fun group other => groups.idxOf group < groups.idxOf other) ↔
      config.InOrder groups := by
  simp only [Config.groupNames, Config.kxGroups, Config.allowed, given, Config.InOrder, List.pairwise_map,
    List.pairwise_filter, List.contains_iff_mem]

/-- The first configured group that is wanted is the most preferred one. -/
theorem mostPreferred_find (given : config.kxGroupFilter = some groups) (inOrder : config.InOrder groups)
    {wanted : NamedGroup → Bool} {group : NamedGroup} (found : config.groupNames.find? wanted = some group) :
    Config.MostPreferred groups (fun group => config.Provides group ∧ wanted group = true) group := by
  obtain ⟨listed, provided⟩ := (mem_groupNames given).mp (List.mem_of_find?_eq_some found)
  refine ⟨listed, ⟨provided, List.find?_some found⟩, fun other member isAvailable => ?_⟩
  have isName := (mem_groupNames given).mpr ⟨member, isAvailable.1⟩
  rcases find_first ((groupNames_pairwise given).mpr inOrder) found other isName isAvailable.2 with
    rfl | later
  · exact Nat.le_refl _
  · exact Nat.le_of_lt later

end Order

namespace Dtls13

/-- Without a fitting share a server asks for the same group as with a cookie. -/
theorem Server.selectShare_retries {suite : Dtls13CipherSuite} {random : Random} {groups : List NamedGroup}
    {found : Server.HelloExtensions} {buffer : Bytes}
    (missing : ¬(found.keyShares.getD []).any fun share => groups.contains share.group) :
    Server.selectShare suite random groups found buffer =
      (match Server.retryGroup groups found with
      | none => throw (.fatal (.securityError .noCommonKeyExchangeGroup))
      | some group => do
        if (← get).endpoint.helloRetry then
          throw (.fatal (.securityError .cannotSendSecondHelloRetryRequest))
        else Server.retryHello suite random (some group)) := by
  have noShare : ((found.keyShares.getD []).find? fun share => groups.contains share.group) = none := by
    simpa [List.find?_eq_none] using missing
  unfold Server.selectShare Server.retryGroup
  rw [noShare, if_neg missing]
  all_goals rfl

/-- The key share of a hello is for the group it is made with. -/
theorem createClientHello_shares {random : Random} {group : NamedGroup} {publicKey : Bytes}
    {cookie : Option Bytes} {e : Engine} :
    Post (Client.createClientHello random group publicKey cookie) e
      (fun body _ => SharesFor group (transcriptMessage .clientHello body)) fun _ _ => True := by
  unfold Client.createClientHello
  rw [post_bind, post_get]
  dsimp only
  rw [post_bind]
  refine (supportedGroups_readOnly e).mono (fun groups e' _ => ?_) fun _ _ _ => trivial
  have listed : (ExtensionType.keyShare,
      serializeKeyShareClientHello [⟨group, ⟨0, publicKey.length⟩⟩] publicKey) ∈
      Client.clientHelloExtensions groups group publicKey cookie := by simp [Client.clientHelloExtensions]
  rw [post_pure]
  exact ⟨publicKey, (ClientHello.layout_within (List.mem_append_left _ listed) rfl).trans
    (List.suffix_append _ _).isInfix⟩

namespace Client

/-- The hello of a client without a retry is for the first configured group. -/
theorem sendClientHello_first {c : Client} (fresh : c.hrrSelectedGroup = none) :
    Post sendClientHello c
      (fun _ c' => Server.Adds (fun message => ∃ group,
        c.engine.config.groupNames.find? (fun _ => true) = some group ∧ SharesFor group message)
        c.engine c'.engine)
      fun _ _ => True := by
  unfold sendClientHello
  rw [post_bind, post_get, post_bind, post_orThrow]
  refine ⟨fun random _ => ?_, fun _ => trivial⟩
  rw [post_bind, withEngine_post, post_modify, post_bind]
  unfold keyShareGroup
  rw [post_bind, post_get]
  dsimp only
  rw [fresh]
  dsimp only
  rw [post_orThrow]
  refine ⟨fun group isGroup => ?_, fun _ => trivial⟩
  have isFirst : c.engine.config.groupNames.find? (fun _ => true) = some group := by
    have isHead : c.engine.config.kxGroups.head?.map SupportedKxGroup.name = some group := isGroup
    rw [← isHead, Config.groupNames, ← List.head?_map]
    cases c.engine.config.kxGroups.map SupportedKxGroup.name <;> rfl
  rw [post_bind, post_get, post_bind, post_orThrow]
  refine ⟨fun kx _ => ?_, fun _ => trivial⟩
  unfold withEndpoint Endpoint.startExchange
  rw [post_bind, post_zoom, post_bind, post_get]
  dsimp only
  rw [post_bind, post_set, post_liftCrypto]
  refine ⟨fun exchange _ => ?_, fun _ _ => trivial⟩
  rw [post_bind, post_modify, post_bind, post_get]
  dsimp only
  rw [post_bind, withEngine_post]
  have shares : Post (createClientHello random group exchange.pubKey c.savedCookie) c.engine.flightBegin
      (fun body _ => ∃ group, c.engine.config.groupNames.find? (fun _ => true) = some group ∧
        SharesFor group (transcriptMessage .clientHello body)) fun _ _ => True :=
    createClientHello_shares.mono (fun body _ isShared => ⟨group, isFirst, isShared⟩) fun _ _ _ => trivial
  exact (Server.createHandshake_adds createClientHello_readOnly shares).mono (fun _ _ added => added)
    fun _ _ _ => trivial

end Client

end Dtls13

/-- The list that is configured is honoured exactly where the provider has its groups once each and in
the same order. -/
theorem honours_iff (config : Config) (groups : List NamedGroup) (given : config.kxGroupFilter = some groups) :
    Honours config groups ↔ config.InOrder groups := by
  constructor
  · intro honours
    exact (groupNames_pairwise given).mp honours.order
  · intro inOrder
    refine ⟨fun _ => mem_groupNames given, (groupNames_pairwise given).mpr inOrder, ?_, ?_⟩
    · rintro c rfl fresh
      refine (Dtls13.Client.sendClientHello_first fresh).mono ?_ fun _ _ _ => trivial
      rintro _ c' (same | ⟨message, ⟨group, isFirst, shares⟩, isAdded⟩)
      · exact .inl same
      · obtain ⟨listed, isAvailable, first⟩ := mostPreferred_find given inOrder isFirst
        refine .inr ⟨message, ⟨group, ⟨listed, isAvailable.1, ?_⟩, shares⟩, isAdded⟩
        exact fun other member provided => first other member ⟨provided, rfl⟩
    · intro found group asked
      unfold Dtls13.Server.retryGroup at asked
      split at asked
      · cases asked
      · obtain ⟨listed, isAvailable, first⟩ := mostPreferred_find given inOrder asked
        simp only [List.contains_iff_mem] at isAvailable first
        exact ⟨listed, isAvailable, first⟩

namespace GroupPreference

/-- A provider with two groups. -/
def provider : CryptoProvider :=
  { Sample.provider with kxGroups := [Sample.kxGroup .x25519, Sample.kxGroup .secp256r1] }

/-- A builder that prefers the second of them. -/
def builder (groups : List NamedGroup) : ConfigBuilder := { Config.builder with kxGroups := some groups }

/-- The tests of the provider. -/
def answers : KnownAnswers := ⟨fun _ => .ok (), fun _ => .ok ()⟩

end GroupPreference

theorem honours_iff_sample :
    Honours ((GroupPreference.builder [.x25519, .secp256r1]).config GroupPreference.provider .linear)
        [.x25519, .secp256r1] ↔
      ((GroupPreference.builder [.x25519, .secp256r1]).config GroupPreference.provider .linear).InOrder
        [.x25519, .secp256r1] :=
  honours_iff _ _ rfl

/-- A group that is listed first comes second. -/
theorem not_honours :
    ¬ ∀ (builder : ConfigBuilder) (answers : KnownAnswers) (installed : CryptoProvider)
        (dequeSearch : Search.DequeSearch) (config : Config) (groups : List NamedGroup),
      builder.kxGroups = some groups → builder.build answers installed dequeSearch = .ok config →
      Honours config groups := by
  intro claim
  have usable : ((GroupPreference.builder [.secp256r1, .x25519]).config
      GroupPreference.provider .linear).Usable :=
    ⟨by decide, by decide, by decide, by decide, by decide, by decide⟩
  have honours := claim (GroupPreference.builder [.secp256r1, .x25519]) GroupPreference.answers
    GroupPreference.provider .linear _ [.secp256r1, .x25519] rfl
    ((build_eq_ok (by decide)).mpr ⟨usable, rfl⟩)
  have ordered := honours.order
  have names : ((GroupPreference.builder [.secp256r1, .x25519]).config
      GroupPreference.provider .linear).groupNames = [.x25519, .secp256r1] := by decide
  rw [names] at ordered
  exact absurd ordered (by decide)

end Dimpl
