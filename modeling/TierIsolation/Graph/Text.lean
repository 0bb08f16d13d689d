import TierIsolation.Coordinates
import TierIsolation.Graph

/-!
# Dependency graphs as text

A graph is written one statement a line: the coordinates of an artifact declare it, two coordinates
with a delimiter between them are an edge. Coordinates may stand between quotes and be followed by
attributes in brackets and by semicolons. Blank lines, braces and comments say nothing, a header
`digraph "coordinates" …` declares the artifact the graph was made for.

`Graph.parse` reads such a text, `Graph.parseFlat` a list of resolved artifacts without edges. Both
stop at the first line that is not well formed.
-/

namespace TierIsolation

/-- A line that is not well formed. -/
structure LineFault where
  /-- The number of the line, counted from one. -/
  number : Nat
  /-- The line without the white space around it. -/
  line : String
  fault : Coordinates.Fault
  deriving DecidableEq, Repr

namespace Graph

/-- What a line says. -/
inductive Statement
  | nothing
  | declaration (a : Artifact)
  | dependency (source target : Artifact)
  deriving DecidableEq, Repr

/-- The graph with what a line says added to it. -/
def apply (g : Graph) : Statement → Graph
  | .nothing => g
  | .declaration a => g.declare a
  | .dependency source target => g.addDependency source target

/-! ## Lines -/

/-- The delimiter between the two ends of an edge, unless another one is set. -/
def defaultDelimiter : String := "->"

/-- Blank lines, single braces and comments. -/
def isStructural (line : List Char) : Bool :=
  line.isEmpty || line == ['\x7b'] || line == ['\x7d'] || "//".toList.isPrefixOf line ||
    line.head? == some '#'

/-- The words a header starts with. -/
def headers : List (List Char) :=
  ["digraph".toList, "strict digraph".toList, "graph".toList]

/-- What follows the first word of a header. -/
def headerRest? (line : List Char) : Option (List Char) :=
  (headers.findSome? (·.isPrefixOf? line)).filter fun rest =>
    rest.head? == some ' ' || rest.head? == some '\x22' || rest.head? == some '\x7b'

/-- Coordinates without attributes, semicolons and quotes. -/
def strip (raw : List Char) : List Char :=
  let text := Text.before (· == '[') (Text.trim raw)
  let text := Text.trim (Text.dropEndWhile (· == ';') (Text.trim text))
  Text.trim (Text.dropBothWhile (· == '\x22') text)

/-- Reads a line whose surrounding white space has been removed. -/
def statement (delimiter line : List Char) : Except Coordinates.Fault Statement :=
  if isStructural line then .ok .nothing
  else
    match headerRest? line with
    | some rest =>
      match Text.between '\x22' rest with
      | none => .ok .nothing
      | some coordinates => (Coordinates.parse coordinates).map .declaration
    | none =>
      match Text.splitOnce delimiter line with
      | some (source, target) => do
        let source ← Coordinates.parse (strip source)
        let target ← Coordinates.parse (strip target)
        return .dependency source target
      | none => (Coordinates.parse (strip line)).map .declaration

/-- Adds lines to a graph, the first of them with the given number. -/
def addLines (read : List Char → Except Coordinates.Fault Statement) (number : Nat) (g : Graph) :
    List (List Char) → Except LineFault Graph
  | [] => .ok g
  | line :: rest =>
    match read line with
    | .error fault => .error ⟨number, String.ofList (Text.trim line), fault⟩
    | .ok said => addLines read (number + 1) (g.apply said) rest

def parse (delimiter content : String) : Except LineFault Graph :=
  addLines (fun line => statement delimiter.toList (Text.trim line)) 1 .empty
    (Text.lines content.toList)

/-! ## Flat lists -/

/-- Reads a line of a flat list. Its artifact is the first word with a colon, if it has at least
four segments; without a scope, it is `compile`. -/
def flatStatement (line : List Char) : Except Coordinates.Fault Statement :=
  match (Text.words line).find? (·.contains ':') with
  | none => .ok .nothing
  | some word =>
    let token := strip word
    let count := (token.splitOn ':').length
    if count < 4 then .ok .nothing
    else
      let coordinates := if count = 4 then token ++ ':' :: Scope.compile.text.toList else token
      (Coordinates.parse coordinates).map .declaration

/-- Reads a list of artifacts, one a line. -/
def parseFlat (content : String) : Except LineFault Graph :=
  addLines flatStatement 1 .empty (Text.lines content.toList)

end Graph

end TierIsolation
