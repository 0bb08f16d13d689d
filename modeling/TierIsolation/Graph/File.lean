import TierIsolation.Failure

/-!
# Dependency graphs in files
-/

namespace TierIsolation.Graph

/-- Reads a graph, its edges written with the given delimiter. -/
def ofText (delimiter content : String) : Except Failure Graph :=
  (parse delimiter content).mapError .malformedLine

/-- Reads a graph from a list of artifacts, one a line. -/
def ofFlatText (content : String) : Except Failure Graph :=
  (parseFlat content).mapError .malformedLine

def textAt (fs : FileSystem) (path : String) : Except Failure String :=
  (fs.readText? path.toList).mapError .unreadable

def ofFile (fs : FileSystem) (delimiter path : String) : Except Failure Graph := do
  ofText delimiter (← textAt fs path)

end TierIsolation.Graph
