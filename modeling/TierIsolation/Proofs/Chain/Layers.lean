import TierIsolation.Chain
import TierIsolation.Proofs.LookupPolicy

/-!
# The layers of a chain

A chain is its tiers one around the other (`ChainRecipe.layers`), the container at place 0.

* `resolver_layer`, `resolver_fields`: the resolver of a layer has the name and the entries of its
  tier.
* `parent?_container`, `parent?_inner`: the layer around a layer is its parent.
* `modeFor_policy`: what the mode of a name is in the tiers of a name.
* `modeFor_of_isBoot`, `modeFor_of_not_isBoot`: without further rules, every layer leaves the names
  with a boot prefix to its parent, and searches its own entries first for all other names.
-/

namespace TierIsolation.ChainRecipe

/-- All tiers, outermost first. -/
def layers (tiers : Tiers) : List PluginTier :=
  ⟨containerName, tiers.container⟩ :: innerTiers tiers

/-- The resolver of a layer. -/
def layer (recipe : ChainRecipe) : Nat → PluginTier → Resolver
  | 0, tier => recipe.container tier.entries
  | k + 1, tier => recipe.inner k tier

/-- Does the name start with a boot prefix? -/
def IsBoot (recipe : ChainRecipe) (name : String) : Prop :=
  ∃ stem ∈ recipe.bootPrefixes, stem.toList <+: name.toList

instance (recipe : ChainRecipe) (name : String) : Decidable (recipe.IsBoot name) :=
  inferInstanceAs (Decidable (∃ stem ∈ recipe.bootPrefixes, _))

variable {recipe : ChainRecipe} {tiers : Tiers} {j k : Nat} {tier : PluginTier} {name : String}

/-! ## Resolvers -/

theorem layers_succ : (layers tiers)[k + 1]? = (innerTiers tiers)[k]? := rfl

/-- The layers around a layer. -/
theorem exists_layer (hk : (layers tiers)[k]? = some tier) (hj : j ≤ k) :
    ∃ outer, (layers tiers)[j]? = some outer := by
  obtain ⟨hlt, -⟩ := List.getElem?_eq_some_iff.1 hk
  exact ⟨_, List.getElem?_eq_getElem (by omega)⟩

/-- The layers from one outwards are that one and those around it. -/
theorem reverse_take_layers (hk : (layers tiers)[k]? = some tier) :
    ((layers tiers).take (k + 1)).reverse = tier :: ((layers tiers).take k).reverse := by
  rw [List.take_add_one, hk]
  simp

theorem size_build : (recipe.build tiers).size = (layers tiers).length := by
  simp [Chain.size, build, layers]

theorem resolver_layer (hk : (layers tiers)[k]? = some tier) :
    (recipe.build tiers).forest.resolver (.resolver k) = recipe.layer k tier := by
  cases k with
  | zero =>
    obtain rfl := Option.some.inj hk
    rfl
  | succ k =>
    rw [layers_succ] at hk
    simp [build, Forest.resolver, layer, hk]

/-- The resolver of a layer searches its tier. -/
theorem resolver_fields (hk : (layers tiers)[k]? = some tier) :
    (recipe.layer k tier).name = tier.name ∧
      (recipe.layer k tier).searchPath = tier.entries.toList ∧
      (recipe.layer k tier).policy = recipe.policy tier.name ∧
      (recipe.layer k tier).suffix = recipe.suffix := by
  cases k with
  | zero =>
    obtain rfl := Option.some.inj hk
    exact ⟨rfl, rfl, rfl, rfl⟩
  | succ k => exact ⟨rfl, rfl, rfl, rfl⟩

theorem parent?_container : (recipe.build tiers).forest.parent? (.resolver 0) = none := rfl

theorem parent?_inner (hk : (layers tiers)[k + 1]? = some tier) :
    (recipe.build tiers).forest.parent? (.resolver (k + 1)) = some (.resolver k) := by
  simp [Forest.parent?, resolver_layer hk, layer, inner]

/-! ## Modes -/

/-- The rules for the tiers of a name, in the order in which they were added. -/
def ownRules (recipe : ChainRecipe) (owner : String) : List (String × LookupMode) :=
  (recipe.rules.filter (·.tier == owner)).map fun rule => (rule.stem, rule.mode)

/-- The beginnings of names that the tiers of a name have rules for. -/
def ruledStems (recipe : ChainRecipe) (owner : String) : List String :=
  recipe.bootPrefixes ++ (recipe.ownRules owner).map (·.1)

/-- The mode for a beginning: that of the last rule for it, which counts more than a boot prefix. -/
def stemMode (recipe : ChainRecipe) (owner stem : String) : LookupMode :=
  (LookupPolicy.latest? (recipe.ownRules owner) stem).getD .parentOnly

theorem policy_eq (recipe : ChainRecipe) (owner : String) :
    recipe.policy owner = ({ default := .selfFirst } : LookupPolicy).addRules
      ((recipe.bootPrefixes.map fun stem => (stem, LookupMode.parentOnly)) ++
        recipe.ownRules owner) :=
  LookupPolicy.addRules_append.symm

/-- The longest beginning decides, be it a boot prefix or that of a rule. -/
theorem modeFor_policy (recipe : ChainRecipe) (owner name : String) :
    (∃ stem, LookupPolicy.IsLongest (recipe.ruledStems owner) name stem ∧
      (recipe.policy owner).modeFor name = recipe.stemMode owner stem) ∨
    (∀ stem ∈ recipe.ruledStems owner, ¬ stem.toList <+: name.toList) ∧
      (recipe.policy owner).modeFor name = .selfFirst := by
  have hstems : ((recipe.bootPrefixes.map fun stem => (stem, LookupMode.parentOnly)) ++
      recipe.ownRules owner).map (·.1) = recipe.ruledStems owner := by
    simp [ruledStems, Function.comp_def]
  rw [policy_eq, ← hstems]
  refine (LookupPolicy.modeFor_addRules _ _ name).imp_left ?_
  rintro ⟨stem, hlongest, hmode⟩
  refine ⟨stem, hlongest, ?_⟩
  rw [LookupPolicy.latest?_append, LookupPolicy.latest?_map] at hmode
  unfold stemMode
  cases hown : LookupPolicy.latest? (recipe.ownRules owner) stem with
  | some mode =>
    rw [hown, Option.some_or, Option.some.injEq] at hmode
    rw [← hmode, Option.getD_some]
  | none =>
    rw [hown, Option.none_or] at hmode
    split at hmode
    · rw [← Option.some.inj hmode, Option.getD_none]
    · cases hmode

section WithoutRules

variable (hrules : recipe.rules = [])
include hrules

theorem ruledStems_eq (owner : String) : recipe.ruledStems owner = recipe.bootPrefixes := by
  simp [ruledStems, ownRules, hrules]

theorem modeFor_of_isBoot (h : recipe.IsBoot name) (owner : String) :
    (recipe.policy owner).modeFor name = .parentOnly := by
  obtain ⟨stem, hstem, hprefix⟩ := h
  obtain ⟨longest, -, hmode⟩ | ⟨hnone, -⟩ := recipe.modeFor_policy owner name
  · rw [hmode]
    simp [stemMode, ownRules, hrules, LookupPolicy.latest?]
  · rw [ruledStems_eq hrules] at hnone
    exact absurd hprefix (hnone stem hstem)

theorem modeFor_of_not_isBoot (h : ¬ recipe.IsBoot name) (owner : String) :
    (recipe.policy owner).modeFor name = .selfFirst := by
  obtain ⟨longest, ⟨hmem, hprefix, -⟩, -⟩ | ⟨-, hmode⟩ := recipe.modeFor_policy owner name
  · rw [ruledStems_eq hrules] at hmem
    exact absurd ⟨longest, hmem, hprefix⟩ h
  · exact hmode

/-- The mode of a layer, for a name that comes from the host. -/
theorem layer_modeFor_of_isBoot (hk : (layers tiers)[k]? = some tier) (h : recipe.IsBoot name) :
    ((recipe.build tiers).forest.resolver (.resolver k)).policy.modeFor name = .parentOnly := by
  rw [resolver_layer hk, (resolver_fields hk).2.2.1]
  exact modeFor_of_isBoot hrules h tier.name

/-- The mode of a layer, for a name that comes from the tiers. -/
theorem layer_modeFor_of_not_isBoot (hk : (layers tiers)[k]? = some tier)
    (h : ¬ recipe.IsBoot name) :
    ((recipe.build tiers).forest.resolver (.resolver k)).policy.modeFor name = .selfFirst := by
  rw [resolver_layer hk, (resolver_fields hk).2.2.1]
  exact modeFor_of_not_isBoot hrules h tier.name

end WithoutRules

/-! ## Sources -/

@[simp] theorem host_build : (recipe.build tiers).forest.host 0 = recipe.host := rfl

theorem source_container (mode : LookupMode) :
    (recipe.build tiers).forest.source (.resolver 0) mode =
      if mode = .parentOnly then (recipe.build tiers).forest.hostSource 0 else .nothing := by
  have hr : (recipe.build tiers).forest.resolver (.resolver 0) =
      recipe.container tiers.container := rfl
  simp [Forest.source, parent?_container, hr, container, Forest.asksHost]

theorem source_inner (hk : (layers tiers)[k + 1]? = some tier) (mode : LookupMode) :
    (recipe.build tiers).forest.source (.resolver (k + 1)) mode = .resolver (.resolver k) := by
  simp [Forest.source, parent?_inner hk]

end TierIsolation.ChainRecipe
