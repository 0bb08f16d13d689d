import TierIsolation.Opener.Memory
import TierIsolation.Proofs.Chain.Layers

/-!
# The longest beginning decides

`longest_decides`: the mode of a name comes from the longest beginning that it has, among all those
that rules were ever added for, and from the rule that was added last for it. So it does, tier by
tier, in a chain, where the boot prefixes are the first rules of every tier.
-/

namespace TierIsolation.ChainRecipe

open LookupPolicy (IsLongest latest?)

/-- **The longest beginning decides, whatever the order of the rules.** A policy to which rules were
added gives a name the mode that was added last for the longest beginning the name has, and its
default mode if the name has none. Rules that end with the same mode for every beginning make
policies that agree on every name. In a chain, the beginnings are the boot prefixes, whose names are
for the parent alone, and those of the rules for the tier, which count more than a boot prefix of
the same text; a name that has none of them is searched for in the tier first. -/
theorem longest_decides :
    (∀ (default : LookupMode) (rules : List (String × LookupMode)) (name : String),
      let mode := (({ default } : LookupPolicy).addRules rules).modeFor name
      (∃ stem, IsLongest (rules.map (·.1)) name stem ∧ latest? rules stem = some mode) ∨
      (∀ stem ∈ rules.map (·.1), ¬ stem.toList <+: name.toList) ∧ mode = default) ∧
    (∀ (default : LookupMode) (rules rules' : List (String × LookupMode)),
      (∀ stem, latest? rules stem = latest? rules' stem) → ∀ name,
        (({ default } : LookupPolicy).addRules rules).modeFor name =
          (({ default } : LookupPolicy).addRules rules').modeFor name) ∧
    ∀ (recipe : ChainRecipe) (tiers : Tiers) (k : Nat) (tier : PluginTier),
      (layers tiers)[k]? = some tier → ∀ name,
        let mode := ((recipe.build tiers).forest.resolver (.resolver k)).policy.modeFor name
        let own := recipe.ownRules tier.name
        let stems := recipe.bootPrefixes ++ own.map (·.1)
        (∃ stem, IsLongest stems name stem ∧ mode = (latest? own stem).getD .parentOnly) ∨
        (∀ stem ∈ stems, ¬ stem.toList <+: name.toList) ∧ mode = .selfFirst := by
  refine ⟨LookupPolicy.modeFor_addRules, fun default rules rules' hlatest name => ?_,
    fun recipe tiers k tier hk name => ?_⟩
  · refine LookupPolicy.modeFor_congr (fun stem => ?_) ?_ name
    · rw [LookupPolicy.get?_addRules, LookupPolicy.get?_addRules, hlatest]
    · rw [LookupPolicy.default_addRules, LookupPolicy.default_addRules]
  · intro mode own stems
    have hpolicy : ((recipe.build tiers).forest.resolver (.resolver k)).policy =
        recipe.policy tier.name := by
      rw [resolver_layer hk, (resolver_fields hk).2.2.1]
    simp only [mode, hpolicy]
    exact recipe.modeFor_policy tier.name name

/-- Rules for two beginnings of one name; one of them was replaced. -/
def replacedRules : List (String × LookupMode) :=
  [("org.é", .parentOnly), ("org.", .parentFirst), ("org.é", .selfFirst)]

/-- The same rules in another order, each once. -/
def distinctRules : List (String × LookupMode) :=
  [("org.é", .selfFirst), ("org.", .parentFirst)]

/-- A chain in which one boot prefix is overruled for the application. -/
def overruled : ChainRecipe where
  opener := .memory [] []
  bootPrefixes := ["org.", "org.é"]
  rules := [⟨"application", "org.é", .parentFirst⟩, ⟨"container", "org.é", .parentFirst⟩,
    ⟨"application", "org.é", .selfFirst⟩]

def emptyTiers : Tiers := ⟨default, .empty, [], .empty⟩

theorem overruled_decides :
    (∀ stem, latest? replacedRules stem = latest? distinctRules stem) ∧
    (∀ name, (({ } : LookupPolicy).addRules replacedRules).modeFor name =
      (({ } : LookupPolicy).addRules distinctRules).modeFor name) ∧
    (layers emptyTiers)[1]? = some ⟨applicationName, .empty⟩ ∧
    ((overruled.build emptyTiers).forest.resolver (.resolver 1)).policy.modeFor "org.éa.B" =
      .selfFirst := by
  obtain ⟨-, hagree, htiers⟩ := longest_decides
  have hsame (stem : String) : latest? replacedRules stem = latest? distinctRules stem := by
    by_cases hruled : stem = "org.é" ∨ stem = "org."
    · obtain rfl | rfl := hruled <;> rfl
    · rw [LookupPolicy.latest?_eq_none_iff.2, LookupPolicy.latest?_eq_none_iff.2]
      · simpa [distinctRules] using hruled
      · simp_all [replacedRules]
  have hlayer : (layers emptyTiers)[1]? = some ⟨applicationName, .empty⟩ := rfl
  have hlongest : IsLongest
      (overruled.bootPrefixes ++ (overruled.ownRules applicationName).map (·.1)) "org.éa.B"
      "org.é" :=
    ⟨by decide, by decide, by decide⟩
  refine ⟨hsame, hagree .selfFirst _ _ hsame, hlayer, ?_⟩
  obtain ⟨stem, hstem, hmode⟩ | ⟨hnone, -⟩ := htiers overruled emptyTiers 1 _ hlayer "org.éa.B"
  · obtain rfl := hstem.eq hlongest
    exact hmode
  · exact absurd hlongest.starts (hnone _ hlongest.mem)

end TierIsolation.ChainRecipe
