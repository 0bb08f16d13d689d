import TierIsolation.Yaml.Token.Block
import TierIsolation.Yaml.Token.Flow
import TierIsolation.Yaml.Token.Tag

/-!
# From text to tokens

`Token.ofText?` cuts a text into tokens. A scalar, a list or an object in one line that stands where
a key may start is remembered as a possible key (`PossibleKey`) until a colon shows that it is one;
the token of the key is then put in front of it. Lists and objects in several lines start where the
text moves right and end where it moves left again (`Layout.open?`, `Layout.close`).
-/

namespace TierIsolation.Yaml

/-- A place that turns out to be the start of a key if a colon follows on its line. -/
structure PossibleKey where
  /-- How many tokens are in front of it. -/
  token : Nat
  /-- Nothing but a key may stand here. -/
  required : Bool
  start : Cursor

/-- What has been read of a text. -/
structure Layout where
  cursor : Cursor
  tokens : Array Token := #[]
  /-- The columns of the open lists and objects in several lines, the innermost first. -/
  columns : List Nat := []
  /-- Whether a key may start here. -/
  keyAllowed : Bool := true
  key : Option PossibleKey := none
  /-- The possible keys around the open lists and objects in one line, the innermost first. -/
  outer : List (Option PossibleKey) := []

namespace Layout

/-- Inside a list or an object in one line? -/
def inFlow (l : Layout) : Bool := !l.outer.isEmpty

/-- The first column that is right of the innermost list or object in several lines. -/
def margin (l : Layout) : Nat := (l.columns.head?.map (· + 1)).getD 0

def push (l : Layout) (t : Token) : Layout := { l with tokens := l.tokens.push t }

/-- One more token, `n` tokens from the start. -/
def insert (l : Layout) (n : Nat) (t : Token) : Layout :=
  { l with tokens := (l.tokens.extract 0 n).push t ++ l.tokens.extract n l.tokens.size }

/-! ## Possible keys -/

/-- The longest key in characters. -/
def keyLimit : Nat := 1024

/-- A possible key, unless the place `c` is too far behind it; `none` for the whole if it had to be
one. -/
def stillPossible? (c : Cursor) : Option PossibleKey → Option (Option PossibleKey)
  | none => some none
  | some k =>
    if k.start.line < c.line || k.start.index + keyLimit < c.index then
      if k.required then none else some none
    else some (some k)

/-- Forgets the possible keys that are too far back. -/
def expireKeys? (l : Layout) : Option Layout := do
  return { l with
    key := ← stillPossible? l.cursor l.key
    outer := ← l.outer.mapM (stillPossible? l.cursor) }

/-- Forgets the possible key in front. -/
def dropKey? (l : Layout) : Option Layout :=
  match l.key with
  | some k => if k.required then none else some { l with key := none }
  | none => some l

/-- Remembers this place as a possible key if one may start here. -/
def saveKey? (l : Layout) : Option Layout := do
  if !l.keyAllowed then return l
  else
    let l ← l.dropKey?
    let required := !l.inFlow && l.columns.head? == some l.cursor.column
    return { l with key := some ⟨l.tokens.size, required, l.cursor⟩ }

/-! ## Lists and objects in several lines -/

/-- Opens a list or an object at this column, unless one is open there. Its token is put behind `n`
tokens. -/
def openAt (l : Layout) (column n : Nat) (t : Token) : Layout :=
  if l.inFlow || column < l.margin then l
  else { l.insert n t with columns := column :: l.columns }

/-- Opens a list or an object here, where one may start. -/
def open? (l : Layout) (t : Token) : Option Layout :=
  if l.inFlow then some l
  else if l.keyAllowed then some (l.openAt l.cursor.column l.tokens.size t)
  else none

/-- Closes the lists and objects that satisfy `p`, up to the first that does not. -/
def closeWhile (p : Nat → Bool) (l : Layout) : Layout :=
  if l.inFlow then l
  else
    let ended := (l.columns.takeWhile p).length
    { l with
      tokens := l.tokens ++ Array.replicate ended Token.blockEnd
      columns := l.columns.drop ended }

/-- Closes the lists and objects right of the cursor. -/
def close (l : Layout) : Layout := l.closeWhile (l.cursor.column < ·)

/-- Closes every list and object in several lines. -/
def closeAll (l : Layout) : Layout := l.closeWhile fun _ => true

/-! ## Tokens -/

/-- Behind the spacing and the comments in front of a token. A key may start on a new line. A mark of
Unicode texts at the start of a line is passed over, and takes a column. There are fewer lines left
than `steps`. -/
def skipSpacing : Nat → Layout → Layout
  | 0, l => l
  | steps + 1, l =>
    let c := l.cursor
    let c := if c.column == 0 && c.next.any isByteOrderMark then c.advance else c
    let tabs := l.inFlow || !l.keyAllowed
    let c := (c.skipWhile fun ch => ch == ' ' || (tabs && ch == '\t')).skipComment
    if c.next.any isBreak then
      skipSpacing steps { l with cursor := c.advance, keyAllowed := !l.inFlow || l.keyAllowed }
    else { l with cursor := c }

/-- A token of `n` characters, after which a key may or may not start. -/
def take (l : Layout) (n : Nat) (keyAllowed : Bool) (t : Token) : Layout :=
  { l.push t with cursor := l.cursor.skip n, keyAllowed }

/-- A token at the left margin that ends everything in several lines. -/
def takeOutermost? (l : Layout) (found : Token × Cursor) : Option Layout := do
  let l ← l.closeAll.dropKey?
  return { l.push found.1 with cursor := found.2, keyAllowed := false }

/-- The start of a list or an object in one line. -/
def openFlow? (l : Layout) (t : Token) : Option Layout := do
  let l ← l.saveKey?
  return { l with key := none, outer := l.key :: l.outer }.take 1 true t

/-- The end of a list or an object in one line. -/
def closeFlow? (l : Layout) (t : Token) : Option Layout := do
  let l ← l.dropKey?
  return match l.outer with
    | [] => l.take 1 false t
    | key :: outer => { l with key, outer }.take 1 false t

/-- A comma between items. -/
def flowEntry? (l : Layout) : Option Layout := do
  return (← l.dropKey?).take 1 true .flowEntry

/-- A dash in front of an item. -/
def blockEntry? (l : Layout) : Option Layout := do
  return (← (← l.open? .blockSequenceStart).dropKey?).take 1 true .blockEntry

/-- A question mark in front of a key. -/
def explicitKey? (l : Layout) : Option Layout := do
  return (← (← l.open? .blockMappingStart).dropKey?).take 1 (!l.inFlow) .key

/-- A colon in front of a value. -/
def value? (l : Layout) : Option Layout :=
  match l.key with
  | some k =>
    let l := (l.insert k.token .key).openAt k.start.column k.token .blockMappingStart
    some ({ l with key := none }.take 1 false .value)
  | none => do return (← l.open? .blockMappingStart).take 1 (!l.inFlow) .value

/-- A name of a node, after its indicator. -/
def name? (make : String → Token) (c : Cursor) : Option (Token × Cursor) :=
  let (name, c) := c.advance.run isNameChar
  let ended := endsWord c.next ||
    c.next.any fun ch => "?:,]\x7d%@".toList.contains ch || ch == '\x60'
  if !name.isEmpty && ended then some (make (String.ofList name), c) else none

/-- A token that a key may start with. -/
def keyStart? (l : Layout) (read : Cursor → Option (Token × Cursor)) : Option Layout := do
  let l ← l.saveKey?
  let (t, c) ← read l.cursor
  return { l.push t with cursor := c, keyAllowed := false }

def quotedScalar? (double : Bool) (c : Cursor) : Option (Token × Cursor) :=
  (quoted? double c).map fun (text, c) =>
    (.scalar (if double then .doubleQuoted else .singleQuoted) (String.ofList text), c)

/-- A plain scalar. A key may start behind it if it is the last on its line. -/
def plainScalar? (l : Layout) : Option Layout := do
  let l ← l.saveKey?
  let s ← plain? l.inFlow l.margin l.cursor
  return { l.push (.scalar .plain (String.ofList s.text)) with
    cursor := s.after, keyAllowed := s.broken }

def blockScalar? (l : Layout) (isLiteral : Bool) : Option Layout := do
  let l ← l.dropKey?
  let (text, c) ← block? isLiteral l.margin l.cursor
  let style := if isLiteral then ScalarStyle.literal else .folded
  return { l.push (.scalar style (String.ofList text)) with cursor := c, keyAllowed := true }

/-- The characters that mean something at the start of a token. -/
def isIndicator (c : Char) : Bool :=
  "-?:,[]\x7b\x7d#&*!|>%@".toList.contains c || c == '\x27' || c == '\x22' || c == '\x60'

/-- May a plain scalar start with this character, the next one following it? -/
def startsPlain (inFlow : Bool) (ch : Char) (next : Option Char) : Bool :=
  (!isSpacing ch && !isIndicator ch) || (ch == '-' && !next.any isBlank) ||
    (!inFlow && (ch == '?' || ch == ':') && !endsWord next)

/-- Reads the token that starts with the character `ch`. -/
def token? (l : Layout) (ch : Char) : Option Layout :=
  let c := l.cursor
  let alone := endsWord c.second
  if c.column == 0 && ch == '%' then do l.takeOutermost? (← directive? c)
  else if c.atTriple '-' then l.takeOutermost? (.documentStart, c.skip 3)
  else if c.atTriple '.' then l.takeOutermost? (.documentEnd, c.skip 3)
  else if ch == '[' then l.openFlow? .flowSequenceStart
  else if ch == '\x7b' then l.openFlow? .flowMappingStart
  else if ch == ']' then l.closeFlow? .flowSequenceEnd
  else if ch == '\x7d' then l.closeFlow? .flowMappingEnd
  else if ch == ',' then l.flowEntry?
  else if ch == '-' && alone then l.blockEntry?
  else if ch == '?' && (l.inFlow || alone) then l.explicitKey?
  else if ch == ':' && (l.inFlow || alone) then l.value?
  else if ch == '*' then l.keyStart? (name? .reference)
  else if ch == '&' then l.keyStart? (name? .anchor)
  else if ch == '!' then l.keyStart? (tag? l.inFlow)
  else if ch == '|' && !l.inFlow then l.blockScalar? true
  else if ch == '>' && !l.inFlow then l.blockScalar? false
  else if ch == '\x27' then l.keyStart? (quotedScalar? false)
  else if ch == '\x22' then l.keyStart? (quotedScalar? true)
  else if startsPlain l.inFlow ch c.second then l.plainScalar?
  else none

/-- Reads tokens up to the end of the text; `steps` is at least two more than the number of characters
left. -/
def tokens? : Nat → Layout → Option (List Token)
  | 0, _ => none
  | steps + 1, l =>
    match (l.skipSpacing steps).expireKeys? with
    | none => none
    | some l =>
      let l := l.close
      match l.cursor.rest with
      | [] => l.closeAll.dropKey?.map (·.tokens.toList)
      | ch :: _ =>
        match l.token? ch with
        | none => none
        | some l => tokens? steps l

end Layout

/-- The tokens of a text with unified line breaks. -/
def Token.ofText? (text : List Char) : Option (List Token) :=
  ({ cursor := ⟨text, 0, 0, 0⟩ } : Layout).tokens? (text.length + 3)

end TierIsolation.Yaml
