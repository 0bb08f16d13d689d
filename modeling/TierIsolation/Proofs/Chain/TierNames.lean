import TierIsolation.Opener.Memory
import TierIsolation.Proofs.Chain.Layers
import TierIsolation.Proofs.Classification.ValidConfiguration

/-!
# The names of the tiers

Container and application have names of their own, and a plugin tier has the name of its extension.
A valid configuration has no two extensions of one name, so the tiers have different names, unless
an extension is called like the container or the application; validation does not look for that.

`tiers_named_apart` says so for every chain that is built from a classification, and that a name
that only one tier has leads to that tier, in `Chain.find?` as in the rules of a recipe.

* `ChainRecipe.names_of_classify`: the names of the tiers, as a configuration gives them.
* `ChainRecipe.find?_eq_some_iff`: a name leads to the outermost tier that has it.
* `ChainRecipe.resolver_withRule`: what one more rule changes.
-/

namespace TierIsolation

/-! ## Names of the tiers of a chain -/

namespace Chain

variable {c : Chain} {k : Nat} {name : String}

/-- The names of the tiers, outermost first. -/
def names (c : Chain) : List String := c.tiers.map (·.name)

theorem getElem?_names_eq_some_iff :
    c.names[k]? = some name ↔ k < c.size ∧ (c.forest.resolver (.resolver k)).name = name := by
  simp [names, tiers, places, tierAt, List.getElem?_eq_some_iff]

/-- A name leads to the outermost tier that has it. -/
theorem find?_eq_some_iff :
    c.find? name = some (.resolver k) ↔
      c.names[k]? = some name ∧ ∀ j < k, c.names[j]? ≠ some name := by
  simp only [ne_eq, getElem?_names_eq_some_iff]
  rw [find?, places, List.find?_map, Option.map_eq_some_iff]
  simp only [Place.resolver.injEq, exists_eq_right, List.find?_range_eq_some, Function.comp_apply,
    beq_iff_eq, List.mem_range, Bool.not_eq_true', beq_eq_false_iff_ne]
  constructor
  · rintro ⟨hname, hlt, hbefore⟩
    exact ⟨⟨hlt, hname⟩, fun j hj h => hbefore j hj h.2⟩
  · rintro ⟨⟨hlt, hname⟩, hbefore⟩
    exact ⟨hname, hlt, fun j hj h => hbefore j hj ⟨Nat.lt_trans hj hlt, h⟩⟩

end Chain

namespace ChainRecipe

variable {recipe : ChainRecipe} {tiers : Tiers} {j k : Nat} {tier : PluginTier} {rule : TierRule}

theorem names_build (recipe : ChainRecipe) (tiers : Tiers) :
    (recipe.build tiers).names = (layers tiers).map (·.name) := by
  refine List.ext_getElem? fun k => Option.ext fun name => ?_
  rw [Chain.getElem?_names_eq_some_iff, List.getElem?_map, Option.map_eq_some_iff, size_build]
  constructor
  · rintro ⟨hlt, hname⟩
    have hk := List.getElem?_eq_getElem hlt
    exact ⟨_, hk, by rw [← hname, resolver_layer hk, (resolver_fields hk).1]⟩
  · rintro ⟨tier, hk, rfl⟩
    obtain ⟨hlt, -⟩ := List.getElem?_eq_some_iff.1 hk
    exact ⟨hlt, by rw [resolver_layer hk, (resolver_fields hk).1]⟩

theorem names_of_classify {c : Classification} (h : c.classify = .ok tiers)
    (recipe : ChainRecipe) :
    (recipe.build tiers).names =
      containerName :: (Classification.pluginNames c.configuration ++ [applicationName]) := by
  rw [names_build, layers, innerTiers, ← Classification.map_name_plugins h]
  simp

/-- The names of the tiers are different, unless a plugin tier is called like the container or the
application. -/
theorem nodup_names_iff {c : Classification} (hvalid : c.configuration.validate = .ok ())
    (h : c.classify = .ok tiers) (recipe : ChainRecipe) :
    (recipe.build tiers).names.Nodup ↔
      ∀ x ∈ c.configuration.extensions, x.name ≠ containerName ∧ x.name ≠ applicationName := by
  rw [Configuration.validate_eq_ok_iff] at hvalid
  have hnodup := Classification.nodup_pluginNames hvalid
  have hcontainer := @Classification.mem_pluginNames _ hvalid containerName (by decide)
  have happlication := @Classification.mem_pluginNames _ hvalid applicationName (by decide)
  have hapart : containerName ≠ applicationName := by decide
  rw [names_of_classify h, List.nodup_cons, List.mem_append, List.nodup_append, hcontainer]
  simp only [List.mem_singleton, hnodup, forall_eq]
  grind

/-! ## Rules -/

/-- The recipe with one more rule. -/
def withRule (recipe : ChainRecipe) (rule : TierRule) : ChainRecipe :=
  { recipe with rules := recipe.rules ++ [rule] }

theorem policy_withRule (recipe : ChainRecipe) (rule : TierRule) (owner : String) :
    (recipe.withRule rule).policy owner =
      if owner = rule.tier then (recipe.policy owner).addRule rule.stem rule.mode
      else recipe.policy owner := by
  have hown : (recipe.withRule rule).rules.filter (·.tier == owner) =
      recipe.rules.filter (·.tier == owner) ++ if owner = rule.tier then [rule] else [] := by
    by_cases howner : owner = rule.tier
    · simp [withRule, howner]
    · simp [withRule, howner, Ne.symm howner]
  rw [policy, hown]
  split
  · rw [List.map_append, LookupPolicy.addRules, List.foldl_append]
    rfl
  · rw [List.append_nil]
    rfl

/-- One more rule changes the policy of those layers that it names. -/
theorem layer_withRule (hk : (layers tiers)[k]? = some tier) :
    (recipe.withRule rule).layer k tier =
      if tier.name = rule.tier then
        { recipe.layer k tier with
          policy := (recipe.layer k tier).policy.addRule rule.stem rule.mode }
      else recipe.layer k tier := by
  cases k with
  | zero =>
    obtain rfl := Option.some.inj hk
    simp only [layer, container, policy_withRule]
    split <;> rfl
  | succ k =>
    simp only [layer, inner, policy_withRule]
    split <;> rfl

/-- One more rule changes the policy of those tiers that it names, and nothing else. -/
theorem resolver_withRule (recipe : ChainRecipe) (tiers : Tiers) (rule : TierRule) (k : Nat) :
    ((recipe.withRule rule).build tiers).forest.resolver (.resolver k) =
      let r := (recipe.build tiers).forest.resolver (.resolver k)
      if (recipe.build tiers).names[k]? = some rule.tier then
        { r with policy := r.policy.addRule rule.stem rule.mode }
      else r := by
  simp only [names_build, List.getElem?_map]
  cases hk : (layers tiers)[k]? with
  | none =>
    have hout : ∀ recipe : ChainRecipe,
        (recipe.build tiers).forest.resolver (.resolver k) = default := by
      intro recipe
      have hlength : (recipe.build tiers).forest.resolvers.length ≤ k := by
        rw [← Chain.size, size_build]
        exact List.getElem?_eq_none_iff.1 hk
      rw [Forest.resolver, List.getElem?_eq_none hlength, Option.getD_none]
    rw [hout, hout, if_neg (by simp)]
  | some tier =>
    rw [resolver_layer hk, resolver_layer hk, layer_withRule hk]
    simp only [Option.map_some, Option.some.injEq]

/-! ## The result -/

/-- **Names identify tiers, if no extension takes one that is given.** The tiers of a chain, built
from the classification that a valid configuration asks for, have different names exactly if no
extension is called like the container or the application. Then every name of a tier leads to that
tier, and one more rule for it changes the policy of its resolver, and no other resolver. -/
theorem tiers_named_apart {c : Classification} {tiers : Tiers}
    (hvalid : c.configuration.validate = .ok ()) (h : c.classify = .ok tiers)
    (recipe : ChainRecipe) :
    let chain := recipe.build tiers
    (chain.names.Nodup ↔
      ∀ x ∈ c.configuration.extensions, x.name ≠ containerName ∧ x.name ≠ applicationName) ∧
    (chain.names.Nodup → ∀ (k : Nat) (t : Tier), chain.tiers[k]? = some t →
      chain.find? t.name = some (.resolver k) ∧
      ∀ stem mode p, ((recipe.withRule ⟨t.name, stem, mode⟩).build tiers).forest.resolver p =
        if p = .resolver k then
          { chain.forest.resolver p with
            policy := (chain.forest.resolver p).policy.addRule stem mode }
        else chain.forest.resolver p) := by
  intro chain
  refine ⟨nodup_names_iff hvalid h recipe, fun hnodup k t ht => ?_⟩
  have hname : chain.names[k]? = some t.name := by
    rw [Chain.names, List.getElem?_map, ht, Option.map_some]
  -- no other tier has the name
  have hunique : ∀ j, chain.names[j]? = some t.name ↔ j = k := by
    intro j
    refine ⟨fun hj => ?_, fun hj => hj ▸ hname⟩
    obtain ⟨hlt, -⟩ := List.getElem?_eq_some_iff.1 hj
    exact (List.getElem?_inj hlt hnodup).1 (hj.trans hname.symm)
  refine ⟨Chain.find?_eq_some_iff.2 ⟨hname, fun j hj h => ?_⟩, fun stem mode p => ?_⟩
  · exact Nat.ne_of_lt hj ((hunique j).1 h)
  · cases p with
    | host => rfl
    | resolver j =>
      rw [resolver_withRule]
      simp only [chain, hunique, Place.resolver.injEq]

/-- A recipe without anything to find. -/
def emptyRecipe : ChainRecipe where
  opener := .memory [] []

/-- Two extensions of different names: the second one is the third tier. -/
theorem shared_named_apart :
    ∃ t, Classification.shared.configuration.validate = .ok () ∧
      Classification.shared.classify = .ok t ∧
      (emptyRecipe.build t).names.Nodup ∧
      (emptyRecipe.build t).find? "y" = some (.resolver 2) ∧
      ((emptyRecipe.withRule ⟨"y", "a", .parentFirst⟩).build t).forest.resolver (.resolver 1) =
        (emptyRecipe.build t).forest.resolver (.resolver 1) := by
  obtain ⟨t, ht⟩ := Classification.shared_classify
  have hvalid : Classification.shared.configuration.validate = .ok () := by cbv
  obtain ⟨hiff, hapart⟩ := tiers_named_apart hvalid ht emptyRecipe
  have hnodup := hiff.2 (by decide)
  obtain ⟨u, hu, hname⟩ : ∃ u, (emptyRecipe.build t).tiers[2]? = some u ∧ u.name = "y" := by
    have h : (emptyRecipe.build t).names[2]? = some "y" := by
      rw [names_of_classify ht]
      rfl
    rwa [Chain.names, List.getElem?_map, Option.map_eq_some_iff] at h
  obtain ⟨hfind, hrule⟩ := hapart hnodup 2 u hu
  rw [hname] at hfind hrule
  exact ⟨t, hvalid, ht, hnodup, hfind, by rw [hrule, if_neg (by decide)]⟩

/-- The extension is called like the application. -/
def misnamed : Classification :=
  Classification.shared.withExtensions [⟨"application", "g:a:*", none⟩]

theorem misnamed_classify : ∃ t, misnamed.classify = .ok t := by
  have hgraph : misnamed.graph = Classification.shared.graph := rfl
  obtain ⟨application, ha⟩ : ∃ s, misnamed.applicationClaim {} = .ok s := by
    rw [Classification.applicationClaim, hgraph, Classification.shared_application]
    exact ⟨_, rfl⟩
  obtain ⟨provided, hv⟩ : ∃ s, misnamed.providedClaim = .ok s := by
    rw [Classification.providedClaim, hgraph, Classification.shared_provided]
    exact ⟨_, rfl⟩
  obtain ⟨x, hx⟩ : ∃ p, misnamed.extensionClaim ⟨"application", "g:a:*", none⟩ = .ok p := by
    have hm : CoordinateMatcher.parse "g:a:*".toList =
      .ok ⟨[⟨.exactly ['g'], .exactly ['a'], .startingWith []⟩]⟩ := rfl
    have he : misnamed.entriesOf (Classification.compileClosure misnamed.graph
        [Classification.sampleJar "a" .compile]) =
        .ok [⟨"g/a/", .directory⟩, ⟨"g/d/", .directory⟩] := by
      rw [hgraph, Classification.shared_closure_a]
      rfl
    exact ⟨_, Classification.extensionClaim_eq_ok.2 ⟨_, hm, by decide, _, he, rfl⟩⟩
  have hp : misnamed.pluginClaims = .ok [x] := Except.mapM_eq_ok.2 (.cons hx .nil)
  exact ⟨_, Classification.classify_eq_ok.2 ⟨_, _, ⟨application, [x], provided⟩, rfl, rfl,
    Classification.claims_eq_ok.2 ⟨ha, hp, hv⟩, rfl⟩⟩

/-- The configuration is valid, and yet the name of the application leads to the plugin tier. -/
theorem misnamed_not_apart :
    ∃ t, misnamed.configuration.validate = .ok () ∧ misnamed.classify = .ok t ∧
      ¬ (emptyRecipe.build t).names.Nodup ∧
      (emptyRecipe.build t).find? applicationName = some (.resolver 1) ∧
      (emptyRecipe.build t).application = .resolver 2 := by
  obtain ⟨t, ht⟩ := misnamed_classify
  have hvalid : misnamed.configuration.validate = .ok () := by with_unfolding_all rfl
  have hnames : (emptyRecipe.build t).names = ["container", "application", "application"] := by
    rw [names_of_classify ht]
    rfl
  have hsize : (emptyRecipe.build t).size = 3 := by
    have hlength := congrArg List.length hnames
    rwa [names_build, List.length_map, ← size_build] at hlength
  refine ⟨t, hvalid, ht, by rw [hnames]; decide, ?_, by rw [Chain.application, hsize]⟩
  rw [Chain.find?_eq_some_iff, hnames]
  decide

end ChainRecipe

end TierIsolation
