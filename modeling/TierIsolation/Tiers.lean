import TierIsolation.Artifact
import TierIsolation.Configuration
import TierIsolation.Entry

/-!
# Tiers

`Tiers` is the result of a classification: the entries of the container, of every plugin tier and of
the application. `Claims` says which entries each tier asks for, and `Claims.settle` gives every
entry to one tier: provided entries to the side that has precedence, an entry that several tiers ask
for to the application, else to the first plugin, and everything that is left to the container.
-/

namespace TierIsolation

structure PluginTier where
  name : String
  entries : EntrySet
  deriving DecidableEq

/-- The entries of every tier. -/
structure Tiers where
  artifactUnderTest : Artifact
  container : EntrySet
  /-- The plugin tiers, outermost first. -/
  plugins : List PluginTier
  application : EntrySet
  deriving DecidableEq

namespace Tiers

/-- The first plugin tier of a name. -/
def plugin? (t : Tiers) (name : String) : Option PluginTier := t.plugins.find? (·.name == name)

/-- The entries of the plugin tiers, tier by tier. -/
def pluginEntries (plugins : List PluginTier) : List Entry :=
  plugins.flatMap fun p => p.entries.toList

def assigned (t : Tiers) : EntrySet :=
  .ofList (t.container.toList ++ pluginEntries t.plugins ++ t.application.toList)

/-- The entries of a class path that are in no tier. -/
def unassigned (t : Tiers) (classpath : List Entry) : List Entry :=
  classpath.filter fun e => e ∉ t.assigned

/-- The number of entries of all tiers, each tier counted for itself. -/
def entryCount (t : Tiers) : Nat :=
  t.container.size + (t.plugins.map (·.entries.size)).foldr (· + ·) 0 + t.application.size

end Tiers

/-- The entries that each tier asks for. -/
structure Claims where
  application : EntrySet
  plugins : List PluginTier
  /-- The entries of what the host provides. -/
  provided : EntrySet

namespace Claims

/-- Takes the provided entries away, unless they stay with application and plugins. -/
def withoutProvided (precedence : Precedence) (provided s : EntrySet) : EntrySet :=
  match precedence with
  | .container => s.filter fun e => e ∉ provided
  | .application => s

/-- Gives every plugin tier those of its entries that are neither in `taken` nor in an earlier
plugin tier. -/
def settlePlugins (taken : EntrySet) : List PluginTier → List PluginTier
  | [] => []
  | p :: rest =>
    let entries := p.entries.filter fun e => e ∉ taken
    { p with entries } :: settlePlugins (taken.insertMany entries.toList) rest

/-- Gives every entry to one tier. -/
def settle (c : Claims) (precedence : Precedence) (classpath : List Entry)
    (artifactUnderTest : Artifact) : Tiers :=
  let application := withoutProvided precedence c.provided c.application
  let plugins := settlePlugins application (c.plugins.map fun p =>
    { p with entries := withoutProvided precedence c.provided p.entries })
  let claimed := application.insertMany (Tiers.pluginEntries plugins)
  let container :=
    OrderedSet.ofList ((classpath ++ c.provided.toList).filter fun e => e ∉ claimed)
  { artifactUnderTest, container, plugins, application }

end Claims

end TierIsolation
