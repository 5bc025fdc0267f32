import Dimpl.Config

/-!
# What a configuration allows

The groups of a configuration are those of its provider that pass the filter. A group is
allowed by its name, so whoever looks a name up in the provider gets an allowed group
exactly when the name is one of the configuration.
-/

namespace Dimpl.Config

/-- A group of `kx_groups` has the name. -/
def HasGroup (config : Config) (group : NamedGroup) : Prop :=
  ∃ kx ∈ config.kxGroups, kx.name = group

/-- The exchange was started by a group of `kx_groups`. -/
def Yields (config : Config) (exchange : ActiveKeyExchange) : Prop :=
  ∃ kx ∈ config.kxGroups, ∃ entropy, kx.startExchange entropy = .ok exchange

instance {config : Config} {group : NamedGroup} : Decidable (config.HasGroup group) :=
  inferInstanceAs (Decidable (∃ kx ∈ config.kxGroups, _))

theorem hasGroup_iff {config : Config} {group : NamedGroup} :
    config.HasGroup group ↔ group ∈ config.kxGroups.map SupportedKxGroup.name := by
  simp [HasGroup]

/-- A name of the configuration leads to one of its groups, also in the provider. -/
theorem mem_of_find {config : Config} {group : NamedGroup} {kx : SupportedKxGroup}
    (has : config.HasGroup group)
    (found : (config.cryptoProvider.supportedKxGroups.find? fun kx => kx.name = group) = some kx) :
    kx ∈ config.kxGroups := by
  obtain ⟨allowed, member, isName⟩ := has
  have isFound : kx.name = group := by simpa using List.find?_some found
  unfold kxGroups at member ⊢
  rw [List.mem_filter] at member ⊢
  exact ⟨List.mem_of_find?_eq_some found, by rw [isFound, ← isName]; exact member.2⟩

end Dimpl.Config
