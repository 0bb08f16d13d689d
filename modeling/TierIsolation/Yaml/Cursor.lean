import TierIsolation.Yaml.Character

/-!
# Places in a text

A cursor is a place in a text together with the rest of the text. Its line and column count line
breaks and the characters after the last of them.
-/

namespace TierIsolation.Yaml

/-- A place in a text and what follows it. -/
structure Cursor where
  rest : List Char
  /-- The number of characters before the place. -/
  index : Nat := 0
  line : Nat := 0
  column : Nat := 0
  deriving Repr, Inhabited

namespace Cursor

def next (c : Cursor) : Option Char := c.rest.head?

/-- The character after the next. -/
def second (c : Cursor) : Option Char := c.rest[1]?

/-- The place behind the next character. -/
def advance (c : Cursor) : Cursor :=
  match c.rest with
  | [] => c
  | ch :: rest =>
    if isBreak ch then ⟨rest, c.index + 1, c.line + 1, 0⟩
    else ⟨rest, c.index + 1, c.line, c.column + 1⟩

/-- The place behind the next `n` characters. -/
def skip : Nat → Cursor → Cursor
  | 0, c => c
  | n + 1, c => skip n c.advance

/-- The longest run of characters that satisfy `p`, and the place behind it. -/
def run (p : Char → Bool) (c : Cursor) : List Char × Cursor :=
  let taken := c.rest.takeWhile p
  (taken, c.skip taken.length)

/-- The place behind the longest run of characters that satisfy `p`. -/
def skipWhile (p : Char → Bool) (c : Cursor) : Cursor := (c.run p).2

/-- Three of these characters at the start of a line, and nothing joined to them. -/
def atTriple (ch : Char) (c : Cursor) : Bool :=
  c.column == 0 && c.rest.take 3 == [ch, ch, ch] && endsWord c.rest[3]?

/-- A mark where a document starts or ends. -/
def atMarker (c : Cursor) : Bool := c.atTriple '-' || c.atTriple '.'

/-- The place behind a comment, if there is one. -/
def skipComment (c : Cursor) : Cursor :=
  if c.next == some '#' then c.skipWhile (!isBreak ·) else c

/-- The place behind blanks, a comment and a line break. Nothing else may be on the line. -/
def restOfLine? (c : Cursor) : Option Cursor :=
  let c := (c.skipWhile isBlank).skipComment
  match c.next with
  | none => some c
  | some ch => if isBreak ch then some c.advance else none

end Cursor

end TierIsolation.Yaml
