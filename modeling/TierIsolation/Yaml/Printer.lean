import TierIsolation.Document.Json
import TierIsolation.Yaml.Node
import TierIsolation.Yaml.Scalar

/-!
# Documents as YAML

`Document.yaml` writes a document as YAML. Objects and lists run over several lines, two spaces
further right at each level; a list under a key starts in the column of the key. Texts are plain
where that is possible and quoted otherwise; texts of several lines are written line by line
(`Yaml.styleOf`).

`Yaml.Node.ofDocument` is the node that a document written this way reads as.
-/

namespace TierIsolation.Yaml

/-! ## The style of a text -/

/-- The characters that a plain scalar cannot start with. -/
def isPlainBarrier (c : Char) : Bool :=
  "#,[]\x7b\x7d&*!|>%@".toList.contains c || c == '\x27' || c == '\x22' || c == '\x60'

/-- Does the start of a text mean something else than a plain scalar? -/
def startsIndicated (s : List Char) : Bool :=
  match s with
  | [] => true
  | c :: rest =>
    isPlainBarrier c || ((c == '-' || c == '?' || c == ':') && endsWord rest.head?) ||
      "---".toList.isPrefixOf s || "...".toList.isPrefixOf s

/-- Does a text with `before` in front of it hold a colon at the end of a word or the start of a
comment? -/
def holdsIndicator : Option Char → List Char → Bool
  | _, [] => false
  | before, c :: rest =>
    (c == ':' && endsWord rest.head?) || (c == '#' && endsWord before) ||
      holdsIndicator (some c) rest

/-- Is the first of two neighbours in the text `p`, and the second `q`? -/
def holdsNeighbours (p q : Char → Bool) (s : List Char) : Bool :=
  (s.zip (s.drop 1)).any fun (a, b) => p a && q b

/-- A space, which is the only white space inside a line. -/
def isSpace (c : Char) : Bool := c == ' '

/-- Can only double quotes hold a text? -/
def needsEscapes (s : List Char) : Bool :=
  s.any (!isPrintable ·) || holdsNeighbours isSpace isBreak s

/-- Can a text be written without quotes on one line? -/
def isPlain (s : List Char) : Bool :=
  !startsIndicated s && !holdsIndicator none s && !s.any isBreak && !needsEscapes s &&
    !s.head?.any isSpace && !s.getLast?.any isSpace

/-- Can a text be written between single quotes? -/
def isSingleQuotable (s : List Char) : Bool :=
  !needsEscapes s && !holdsNeighbours isBreak isSpace s

/-- Can a text be written line by line? -/
def isBlock (s : List Char) : Bool :=
  !needsEscapes s && !s.getLast?.any isSpace

/-- The style that a text is written in. -/
def styleOf (s : String) : ScalarStyle :=
  let cs := s.toList
  if cs.contains '\n' then if isBlock cs then .literal else .doubleQuoted
  else if !Scalar.looksTyped s && isPlain cs then .plain
  else if isSingleQuotable cs then .singleQuoted
  else .doubleQuoted

/-- The style of the name of a field, which stands on one line. -/
def fieldStyleOf (s : String) : ScalarStyle :=
  if s.toList.any isBreak then .doubleQuoted else styleOf s

/-! ## Scalars -/

/-- Digits in base sixteen, in upper case. -/
def upperHex (width n : Nat) : List Char :=
  let digits := (Nat.toDigits 16 n).map Char.toUpper
  List.replicate (width - digits.length) '0' ++ digits

/-- A character that cannot stand for itself between double quotes. -/
def escapeOf (c : Char) : List Char :=
  match c with
  | '\x00' => ['0']
  | '\x07' => ['a']
  | '\x08' => ['b']
  | '\t' => ['t']
  | '\n' => ['n']
  | '\x0b' => ['v']
  | '\x0c' => ['f']
  | '\r' => ['r']
  | '\x1b' => ['e']
  | '\x22' => ['\x22']
  | '\\' => ['\\']
  | '\x85' => ['N']
  | '\u2028' => ['L']
  | '\u2029' => ['P']
  | c =>
    if c.toNat ≤ 0xFF then 'x' :: upperHex 2 c.toNat
    else if c.toNat ≤ 0xFFFF then 'u' :: upperHex 4 c.toNat
    else 'U' :: upperHex 8 c.toNat

/-- A character between double quotes. -/
def doubleQuotedChar (c : Char) : List Char :=
  if !isPrintable c || isBreak c || c == '\x22' || c == '\\' then '\\' :: escapeOf c else [c]

/-- A character between single quotes. -/
def singleQuotedChar (c : Char) : List Char := if c == '\x27' then ['\x27', '\x27'] else [c]

/-- The spaces in front of a line. -/
def margin (column : Nat) : List Char := List.replicate column ' '

/-- A text of several lines with a margin in front of each that is not empty. The text starts a line
if `atStart`. -/
def indented (column : Nat) (write : Char → List Char) : Bool → List Char → List Char
  | _, [] => []
  | atStart, c :: rest =>
    if isBreak c then c :: indented column write true rest
    else (if atStart then margin column else []) ++ write c ++ indented column write false rest

/-- What says how a text written line by line starts and ends. -/
def blockHints (s : List Char) : List Char :=
  (if s.head?.any fun c => isSpace c || isBreak c then ['2'] else []) ++
    if !s.getLast?.any isBreak then ['-']
    else if s.length = 1 || s.dropLast.getLast?.any isBreak then ['+']
    else []

/-- A text in a style, on lines that start in the given column. -/
def scalarText (column : Nat) (style : ScalarStyle) (s : List Char) : List Char :=
  match style with
  | .plain => s
  | .singleQuoted =>
    let closing := if s.getLast?.any isBreak then margin column else []
    ['\x27'] ++ indented column singleQuotedChar false s ++ closing ++ ['\x27']
  | .doubleQuoted => ['\x22'] ++ s.flatMap doubleQuotedChar ++ ['\x22']
  | .literal | .folded =>
    ['|'] ++ blockHints s ++ ['\n'] ++ indented column (fun c => [c]) true s

/-- A text with a line break behind it, unless it ends in one. -/
def endLine (s : List Char) : List Char := if s.getLast?.any isBreak then s else s ++ ['\n']

/-- The text and the style of a document without lists and objects. -/
def scalarOf : Document → ScalarStyle × String
  | .text s => (styleOf s, s)
  | d => (.plain, d.jsonScalar)

/-- A document without lists and objects, up to the end of its line. -/
def scalarLine (column : Nat) (d : Document) : List Char :=
  endLine (scalarText column (scalarOf d).1 (scalarOf d).2.toList)

/-! ## Documents -/

mutual

/-- The items of a list, their dashes in the given column. -/
def itemLines (column : Nat) : List Document → List Char
  | [] => []
  | item :: rest =>
    margin column ++ ['-'] ++
      (match item with
      | .list (first :: more) => ' ' :: (itemLines (column + 2) (first :: more)).drop (column + 2)
      | .object (first :: more) => ' ' :: (fieldLines (column + 2) (first :: more)).drop (column + 2)
      | .list [] => " []\n".toList
      | .object [] => " \x7b\x7d\n".toList
      | scalar => ' ' :: scalarLine (column + 2) scalar) ++
      itemLines column rest

/-- The fields of an object, their names in the given column. -/
def fieldLines (column : Nat) : List (String × Document) → List Char
  | [] => []
  | (name, value) :: rest =>
    margin column ++ scalarText column (fieldStyleOf name) name.toList ++ [':'] ++
      (match value with
      | .list (first :: more) => '\n' :: itemLines column (first :: more)
      | .object (first :: more) => '\n' :: fieldLines (column + 2) (first :: more)
      | .list [] => " []\n".toList
      | .object [] => " \x7b\x7d\n".toList
      | scalar => ' ' :: scalarLine (column + 2) scalar) ++
      fieldLines column rest

end

mutual

/-- The node that a document reads as after it has been written. -/
def Node.ofDocument : Document → Node
  | .list items => .sequence {} (Node.ofItems items)
  | .object fields => .mapping {} (Node.ofFields fields)
  | d => .scalar {} (scalarOf d).1 (scalarOf d).2

def Node.ofItems : List Document → List Node
  | [] => []
  | item :: rest => Node.ofDocument item :: Node.ofItems rest

def Node.ofFields : List (String × Document) → List (Node × Node)
  | [] => []
  | (name, value) :: rest =>
    (.scalar {} (fieldStyleOf name) name, Node.ofDocument value) :: Node.ofFields rest

end

end TierIsolation.Yaml

namespace TierIsolation.Document

/-- The document as YAML. -/
def yaml (d : Document) : String :=
  String.ofList <| match d with
    | list (first :: more) => Yaml.itemLines 0 (first :: more)
    | object (first :: more) => Yaml.fieldLines 0 (first :: more)
    | list [] => "[]\n".toList
    | object [] => "\x7b\x7d\n".toList
    | scalar => Yaml.scalarLine 2 scalar

end TierIsolation.Document
