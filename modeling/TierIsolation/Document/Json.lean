import TierIsolation.Document

/-!
# Documents as JSON

`Document.compact` writes a document on one line without white space, `Document.pretty` on several
lines with two spaces a level. Texts are written between double quotes; quotes, backslashes and
control characters are escaped, every other character stands for itself.
-/

namespace TierIsolation.Document

/-- Two digits in base sixteen, in lower case. -/
def twoHexDigits (n : Nat) : List Char := [Nat.digitChar (n / 16), Nat.digitChar (n % 16)]

/-- A character between quotes. -/
def jsonEscaped (c : Char) : List Char :=
  if c = '\x22' then ['\\', '\x22']
  else if c = '\\' then ['\\', '\\']
  else if c = '\x08' then ['\\', 'b']
  else if c = '\x0c' then ['\\', 'f']
  else if c = '\n' then ['\\', 'n']
  else if c = '\r' then ['\\', 'r']
  else if c = '\t' then ['\\', 't']
  else if c.toNat < 0x20 then ['\\', 'u', '0', '0'] ++ twoHexDigits c.toNat
  else [c]

/-- A text between double quotes. -/
def jsonQuoted (s : String) : String :=
  String.ofList (['\x22'] ++ s.toList.flatMap jsonEscaped ++ ['\x22'])

/-- A number in decimal notation. -/
def jsonNumber (mantissa : Int) (decimals : Nat) : String :=
  if decimals = 0 then toString mantissa
  else
    let digits := toString mantissa.natAbs
    let padded := String.ofList (List.replicate (decimals + 1 - digits.length) '0') ++ digits
    let whole := padded.toList.take (padded.length - decimals)
    let rest := padded.toList.drop (padded.length - decimals)
    (if mantissa < 0 then "-" else "") ++ String.ofList (whole ++ '.' :: rest)

/-- The text of a document without lists and objects. -/
def jsonScalar : Document → String
  | truth b => if b then "true" else "false"
  | number mantissa decimals => jsonNumber mantissa decimals
  | text s => jsonQuoted s
  | _ => "null"

mutual

/-- The document on one line. -/
def compact : Document → String
  | list items => "[" ++ ",".intercalate (compactItems items) ++ "]"
  | object fields => "\x7b" ++ ",".intercalate (compactFields fields) ++ "\x7d"
  | scalar => jsonScalar scalar

/-- The items of a list, each on one line. -/
def compactItems : List Document → List String
  | [] => []
  | item :: rest => compact item :: compactItems rest

/-- The fields of an object, each on one line. -/
def compactFields : List (String × Document) → List String
  | [] => []
  | (name, value) :: rest => (jsonQuoted name ++ ":" ++ compact value) :: compactFields rest

end

/-- The white space in front of a line. -/
def margin (depth : Nat) : String := String.ofList (List.replicate (2 * depth) ' ')

/-- Lines between brackets, one level deeper than the brackets. -/
def bracketed (opening closing : String) (depth : Nat) (lines : List String) : String :=
  if lines.isEmpty then opening ++ closing
  else
    opening ++ "\n" ++ ",\n".intercalate (lines.map (margin (depth + 1) ++ ·)) ++
      "\n" ++ margin depth ++ closing

mutual

/-- The document on several lines, as part of a line at the given depth. -/
def prettyAt (depth : Nat) : Document → String
  | list items => bracketed "[" "]" depth (prettyItems (depth + 1) items)
  | object fields => bracketed "\x7b" "\x7d" depth (prettyFields (depth + 1) fields)
  | scalar => jsonScalar scalar

def prettyItems (depth : Nat) : List Document → List String
  | [] => []
  | item :: rest => prettyAt depth item :: prettyItems depth rest

def prettyFields (depth : Nat) : List (String × Document) → List String
  | [] => []
  | (name, value) :: rest =>
    (jsonQuoted name ++ ": " ++ prettyAt depth value) :: prettyFields depth rest

end

def pretty (d : Document) : String := prettyAt 0 d

end TierIsolation.Document
