import TierIsolation.Failure
import TierIsolation.Graph.Closure
import TierIsolation.Tiers

/-!
# Classification

`Classification.classify` splits a class path into tiers. The dependency graph says which artifacts
the application (`applicationArtifacts`), the plugins (`compileClosure`) and the host
(`providedArtifacts`) bring along; their entries, found by `EntryLookup`, are what the tiers claim,
and `Claims.settle` makes the tiers disjoint.
-/

namespace TierIsolation

/-- What a classification is made from. -/
structure Classification where
  configuration : Configuration
  classpath : List Entry
  graph : Graph
  folders : ModuleFolders

namespace Classification

/-! ## Artifacts of the tiers -/

/-- The artifacts of the application: everything declared for tests with the dependencies it leads
to, and the test dependencies that compiled artifacts lead to. Excluded artifacts are left out,
unless they are declared for tests themselves. -/
def applicationArtifacts (g : Graph) (exclusions : CoordinateMatcher) : List Artifact :=
  Artifact.distinct (g.nodes.flatMap fun a =>
    if a.isTest then
      a :: g.closure a.identity fun dep => !exclusions.accepts dep
    else if a.isCompile && !exclusions.accepts a then
      g.closure a.identity fun dep => dep.isTest && !exclusions.accepts dep
    else [])

/-- The artifacts of the host: everything provided with the dependencies it leads to, those for
tests left out. -/
def providedArtifacts (g : Graph) : List Artifact :=
  Artifact.distinct ((g.nodes.filter (·.isProvided)).flatMap fun a =>
    a :: g.closure a.identity fun dep => !dep.isTest)

/-- Some artifacts with the compiled dependencies they lead to. -/
def compileClosure (g : Graph) (seeds : List Artifact) : List Artifact :=
  Artifact.distinct (seeds.flatMap fun a => a :: g.closure a.identity (·.isCompile))

/-! ## Claims of the tiers -/

/-- The name of the plugin tier that all compiled artifacts make up. -/
def allCompilePlugin : String := "plugin"

def lookup (c : Classification) : EntryLookup := ⟨c.classpath, c.folders⟩

def entriesOf (c : Classification) (artifacts : List Artifact) : Except Failure (List Entry) :=
  (c.lookup.locateAll artifacts).mapError .notLocated

/-- What the application claims: the entries of its artifacts and the test output. -/
def applicationClaim (c : Classification) (exclusions : CoordinateMatcher) :
    Except Failure EntrySet := do
  let entries ← c.entriesOf (applicationArtifacts c.graph exclusions)
  let output := c.configuration.testOutput
  return .ofList (entries ++ c.classpath.filter (·.location == output))

/-- What an extension claims: the entries of the artifacts its patterns select, with their
compile closure, and its metadata location. -/
def extensionClaim (c : Classification) (e : Extension) : Except Failure PluginTier := do
  let matcher ← (CoordinateMatcher.parse e.artifact.toList).mapError fun found =>
    .configuration (.ofPattern found)
  let seeds := c.graph.nodes.filter matcher.accepts
  if seeds.isEmpty then throw (.notLocated (.noMatch e.artifact e.name))
  let entries ← c.entriesOf (compileClosure c.graph seeds)
  return ⟨e.name, .ofList (entries ++ (e.metadataLocation.map Entry.ofText).toList)⟩

def pluginClaims (c : Classification) : Except Failure (List PluginTier) :=
  match c.configuration.pluginSpace with
  | .disabled => .ok []
  | .allCompile => do
    let entries ← c.entriesOf (compileClosure c.graph (c.graph.nodes.filter (·.isCompile)))
    return [⟨allCompilePlugin, .ofList entries⟩]
  | .extensions => c.configuration.extensions.mapM c.extensionClaim

def providedClaim (c : Classification) : Except Failure EntrySet := do
  return .ofList (← c.entriesOf (providedArtifacts c.graph))

def claims (c : Classification) (exclusions : CoordinateMatcher) : Except Failure Claims := do
  let application ← c.applicationClaim exclusions
  let plugins ← c.pluginClaims
  let provided ← c.providedClaim
  return { application, plugins, provided }

/-! ## The tiers -/

/-- Splits the class path into tiers. -/
def classify (c : Classification) : Except Failure Tiers := do
  let some artifactUnderTest := c.graph.artifactUnderTest? | throw .noArtifactUnderTest
  let exclusions ← c.configuration.exclusions.mapError fun found =>
    .configuration (.ofPattern found)
  let claims ← c.claims exclusions
  return claims.settle c.configuration.providedPrecedence c.classpath artifactUnderTest

end Classification

end TierIsolation
