import TierIsolation.Forest.Inspection
import TierIsolation.Forest.Resolution
import TierIsolation.Tiers

/-!
# Chains of tiers

A chain has one resolver for each tier of a classification: the container, the plugin tiers in
order, and the application, each the parent of the next. The container alone asks the host, and only
for names with a boot prefix; every other tier searches its own entries first and leaves the names
with a boot prefix to its parent. Rules for single tiers can change that (`ChainRecipe`). The forest
of a chain has this one host.

`Chain.release` takes a chain down: the application first, the container last, then the host.
-/

namespace TierIsolation

structure TierRule where
  tier : String
  stem : String
  mode : LookupMode
  deriving DecidableEq, Repr

/-- What a chain is built from, besides the tiers. -/
structure ChainRecipe where
  host : Host := .empty
  /-- The opener of the tiers. -/
  opener : Opener
  /-- The opener of the host. -/
  hostOpener : Opener := opener
  /-- Names that start with one of these come from the host. -/
  bootPrefixes : List String := ({} : Configuration).bootPrefixes
  suffix : String := ({} : Configuration).symbolSuffix
  /-- Further rules for single tiers. -/
  rules : List TierRule := []

structure Chain where
  forest : Forest

namespace ChainRecipe

/-- The name of the outermost tier. -/
def containerName : String := "container"

def applicationName : String := "application"

/-- The policy of a tier: its own entries first, boot prefixes for the parent alone, and then the
rules for the tier. -/
def policy (recipe : ChainRecipe) (tier : String) : LookupPolicy :=
  let boot := recipe.bootPrefixes.map fun stem => (stem, LookupMode.parentOnly)
  let own := (recipe.rules.filter (·.tier == tier)).map fun rule => (rule.stem, rule.mode)
  (({ default := .selfFirst } : LookupPolicy).addRules boot).addRules own

def container (recipe : ChainRecipe) (entries : EntrySet) : Resolver where
  name := containerName
  searchPath := entries.toList
  host := some 0
  fallback := .isolated
  policy := recipe.policy containerName
  suffix := recipe.suffix

/-- The resolver of a tier inside the one with the given number. -/
def inner (recipe : ChainRecipe) (parent : Nat) (tier : PluginTier) : Resolver where
  name := tier.name
  searchPath := tier.entries.toList
  parent := some parent
  policy := recipe.policy tier.name
  suffix := recipe.suffix

/-- The tiers inside the container, outermost first. -/
def innerTiers (tiers : Tiers) : List PluginTier :=
  tiers.plugins ++ [⟨applicationName, tiers.application⟩]

/-- The opener of the tier or the host at a place. -/
def openerAt (recipe : ChainRecipe) : Place → Opener
  | .host _ => recipe.hostOpener
  | .resolver _ => recipe.opener

def build (recipe : ChainRecipe) (tiers : Tiers) : Chain where
  forest := {
    resolvers := recipe.container tiers.container ::
      (innerTiers tiers).zipIdx.map fun (tier, parent) => recipe.inner parent tier
    hosts := [recipe.host]
    opener := recipe.openerAt }

end ChainRecipe

structure Tier where
  name : String
  entries : List Entry
  /-- The name of the tier around it. -/
  parent : Option String
  deriving DecidableEq, Repr

def Tier.inspect (t : Tier) : String :=
  Inspection.record "Tier"
    [("name", Inspection.quoted t.name), ("entries", Inspection.list (t.entries.map Entry.inspect)),
     ("parent", Inspection.optional (t.parent.map Inspection.quoted))]

namespace Chain

variable (c : Chain)

def size : Nat := c.forest.resolvers.length

def places : List Place := (List.range c.size).map .resolver

def tierAt (p : Place) : Tier :=
  let r := c.forest.resolver p
  ⟨r.name, r.searchPath, c.forest.parentName? p⟩

def tiers : List Tier := c.places.map c.tierAt

/-- The outermost tier of a name. -/
def find? (name : String) : Option Place :=
  c.places.find? fun p => (c.forest.resolver p).name == name

def container : Place := .resolver 0

def application : Place := .resolver (c.size - 1)

structure State where
  forest : Forest.State := {}
  tornDown : Bool := false

/-- Releases resolvers one after the other and counts failures. -/
def releaseEach : List Place → Forest.State → Forest.State × Nat
  | [], s => (s, 0)
  | p :: rest, s =>
    let (s, first) := c.forest.release p s
    let (s, failures) := releaseEach rest s
    (s, first + failures)

/-- Releases every tier, innermost first, and then the host. Counts failures. -/
def releaseForest (s : Forest.State) : Forest.State × Nat :=
  let (s, failures) := c.releaseEach c.places.reverse s
  let (s, last) := c.forest.releaseHost 0 s
  (s, failures + last)

/-- Takes the chain down, once. Counts failures. -/
def release (s : State) : State × Nat :=
  if s.tornDown then (s, 0)
  else
    let (forest, failures) := c.releaseForest s.forest
    ({ forest, tornDown := true }, failures)

def inspect (s : State) : String :=
  Inspection.record "ResolverChain"
    [("host", Inspection.quoted (c.forest.host 0).name),
     ("tiers", Inspection.list (c.tiers.map Tier.inspect)),
     ("torn_down", Inspection.truth s.tornDown)]

end Chain

end TierIsolation
