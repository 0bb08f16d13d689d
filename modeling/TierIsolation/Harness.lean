import TierIsolation.Chain
import TierIsolation.Classification
import TierIsolation.Graph.File

/-!
# Harnesses

A harness brings together what a classification and a chain need: a configuration, where the class
path and the dependency graph come from, the folders of modules, a host and openers. It classifies
(`Harness.classify`), builds a chain (`Harness.construct`) and runs a script in the application tier
of a chain that is taken down afterwards (`Harness.run`).

A chain lives as long as a run, but the host and the openers outlive it: what they remember from one
run to the next is the `World`.
-/

namespace TierIsolation

/-- The files and variables that a harness can look at. -/
structure Surroundings where
  files : FileSystem
  environment : List (String × String) := []

/-- Where the class path comes from. -/
inductive ClasspathSource
  | fixed (entries : List Entry)
  /-- The configured variable holds a list of paths. -/
  | configured

/-- Where the dependency graph comes from. -/
inductive GraphSource
  | fixed (g : Graph)
  /-- The file at this path. -/
  | file (path : String)
  /-- The configured file. -/
  | configured

/-- What classifications and chains are made from. -/
structure Harness where
  configuration : Configuration
  surroundings : Surroundings
  classpath : ClasspathSource := .configured
  /-- Why the class path cannot be had, if it cannot. -/
  classpathFailure : Option Failure := none
  graph : GraphSource := .configured
  /-- Why the graph cannot be had, if its source fails for a reason of its own. -/
  graphFailure : Option Failure := none
  folders : ModuleFolders := .none
  host : Host := .empty
  opener : Opener
  /-- The opener of the host. -/
  hostOpener : Opener := opener

namespace Harness

variable (h : Harness)

/-! ## Classification -/

/-- The class path. Without the configured variable it is empty. -/
def readClasspath : Except Failure (List Entry) :=
  match h.classpathFailure, h.classpath with
  | some failure, _ => .error failure
  | none, .fixed entries => .ok entries
  | none, .configured =>
    match h.surroundings.environment.lookup h.configuration.classpathVariable with
    | some value => .ok (Entry.ofPathList h.surroundings.files value)
    | none => .ok []

def readGraph : Except Failure Graph :=
  let read := Graph.ofFile h.surroundings.files h.configuration.edgeDelimiter
  match h.graphFailure, h.graph with
  | some failure, _ => .error failure
  | none, .fixed g => .ok g
  | none, .file path => read path
  | none, .configured => read h.configuration.graphFile

/-- Classifies the class path, if the configuration is valid. -/
def classify : Except Failure Tiers := do
  h.configuration.validate.mapError .configuration
  let classpath ← h.readClasspath
  let graph ← h.readGraph
  Classification.classify {
    configuration := h.configuration
    classpath
    graph
    folders := h.folders }

/-! ## Chains -/

def recipe : ChainRecipe where
  host := h.host
  opener := h.opener
  hostOpener := h.hostOpener
  bootPrefixes := h.configuration.bootPrefixes
  suffix := h.configuration.symbolSuffix

def construct : Except Failure Chain := h.classify.map h.recipe.build

/-- What outlives a chain: the state of the resolver behind the host, and the history of the
openers. -/
structure World where
  host : ResolverState := {}
  history : History := []

instance : Inhabited World := ⟨{}⟩

/-- The state of a new chain. -/
def World.start (w : World) : Forest.State where
  resolver p := if p = .host 0 then w.host else {}
  history := w.history

/-- What is left of the state of a chain. -/
def World.after (s : Forest.State) : World := ⟨s.resolver (.host 0), s.history⟩

/-! ## Runs -/

/-- What is done in a chain: operations on its tiers, each chosen by the answers to those before it,
and at the end a value or a failure. -/
inductive Script (α : Type)
  | done (result : Except Failure α)
  | resolve (p : Place) (name : String) (next : Except ResolutionFault Symbol → Script α)
  | tryResolve (p : Place) (name : String)
      (next : Except ResolutionFault (Option Symbol) → Script α)
  | release (p : Place) (next : Nat → Script α)

namespace Script

variable {α : Type}

def run (c : Chain) (depth : Nat) :
    Script α → Forest.State → Forest.State × Except Failure α
  | done result, s => (s, result)
  | resolve p name next, s =>
    let (s, answer) := c.forest.resolve depth p name s
    run c depth (next answer) s
  | tryResolve p name next, s =>
    let (s, answer) := c.forest.tryResolve depth p name s
    run c depth (next answer) s
  | release p next, s =>
    let (s, failures) := c.forest.release p s
    run c depth (next failures) s

/-- Resolves names one after the other, up to the first fault. The symbols found before it come with
it; those of the names before are `found`, the last one first. -/
def resolveEach (p : Place) (found : List Symbol) :
    List String → Script (List Symbol × Option ResolutionFault)
  | [] => done (.ok (found.reverse, none))
  | name :: rest => resolve p name fun
    | .ok symbol => resolveEach p (symbol :: found) rest
    | .error fault => done (.ok (found.reverse, some fault))

end Script

/-- Runs a script, given the application tier, in a new chain, and takes the chain down, whatever
came of it. -/
def run {α : Type} (depth : Nat) (script : Place → Script α) (w : World) :
    World × Except Failure α :=
  match h.construct with
  | .error failure => (w, .error failure)
  | .ok c =>
    let (s, result) := (script c.application).run c depth w.start
    let (s, _) := c.releaseForest s
    (.after s, result)

end Harness

end TierIsolation
