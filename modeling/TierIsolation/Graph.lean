import TierIsolation.Artifact

/-!
# Dependency graphs

A graph lists its artifacts in the order of their first mention and its edges in the order of their
first declaration. An edge runs between identities and carries the artifact it leads to as it was
declared there, whose scope and version may differ from those of the node.

`declare` and `addDependency` build graphs; both keep what was declared first. The traversals are in
`TierIsolation.Graph.Closure`.
-/

namespace TierIsolation

/-- A direct dependency, as declared. -/
structure Edge where
  source : Identity
  target : Artifact
  deriving DecidableEq, Repr

structure Graph where
  /-- The artifacts, in the order of their first mention. -/
  nodes : List Artifact := []
  /-- The direct dependencies, in the order of their first declaration. -/
  edges : List Edge := []
  deriving DecidableEq, Repr, Inhabited

namespace Graph

def empty : Graph := {}

/-! ## Queries -/

/-- The declared artifact of an identity. -/
def get? (g : Graph) (i : Identity) : Option Artifact := g.nodes.find? (·.identity == i)

def contains (g : Graph) (i : Identity) : Bool := g.nodes.any (·.identity == i)

/-- The position of an identity among the declared artifacts. -/
def index? (g : Graph) (i : Identity) : Option Nat := g.nodes.findIdx? (·.identity == i)

/-- Does an edge run from `source` to `target`? -/
def connects (g : Graph) (source target : Identity) : Bool :=
  g.edges.any fun e => e.source == source && e.target.identity == target

/-- The artifacts that `i` directly depends on, as declared on the edges, in order. -/
def dependencies (g : Graph) (i : Identity) : List Artifact :=
  (g.edges.filter (·.source == i)).map (·.target)

/-- The artifacts that directly depend on `i`, as declared on their nodes, newest edge first. -/
def dependents (g : Graph) (i : Identity) : List Artifact :=
  (g.edges.reverse.filter (·.target.identity == i)).filterMap fun e => g.get? e.source

/-- Every artifact with its direct dependencies. -/
def edgeMap (g : Graph) : List (Artifact × List Artifact) :=
  g.nodes.map fun a => (a, g.dependencies a.identity)

/-- The artifact under test: the first one declared with scope `compile`. -/
def artifactUnderTest? (g : Graph) : Option Artifact := g.nodes.find? (·.isCompile)

/-! ## Construction -/

/-- Mentions an artifact; an identity that is declared already stays as it is. -/
def declare (g : Graph) (a : Artifact) : Graph :=
  if g.contains a.identity then g else { g with nodes := g.nodes ++ [a] }

/-- Adds an edge between two artifacts and mentions both; an edge that is there stays as it is. -/
def addDependency (g : Graph) (source target : Artifact) : Graph :=
  let g := (g.declare source).declare target
  if g.connects source.identity target.identity then g
  else { g with edges := g.edges ++ [⟨source.identity, target⟩] }

@[simp] theorem edges_declare (g : Graph) (a : Artifact) : (g.declare a).edges = g.edges := by
  unfold declare; split <;> rfl

end Graph

end TierIsolation
