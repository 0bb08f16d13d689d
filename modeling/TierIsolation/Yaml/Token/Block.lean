import TierIsolation.Yaml.Cursor

/-!
# Scalars line by line

A block scalar is a header and the lines below it that are indented. The header says how the scalar
is indented, unless its first line shows it, and what becomes of the line breaks at its end.
-/

namespace TierIsolation.Yaml

/-- What becomes of the line breaks at the end of a block scalar. -/
inductive Chomping
  | clip
  | strip
  | keep
  deriving DecidableEq, Repr

structure BlockHeader where
  chomping : Chomping := .clip
  /-- How much further right than what is around it the scalar stands. -/
  increment : Option Nat := none

/-- Reads how a block scalar ends. -/
def chomping? (c : Cursor) : Option (Chomping × Cursor) :=
  match c.next with
  | some '+' => some (.keep, c.advance)
  | some '-' => some (.strip, c.advance)
  | _ => none

/-- Reads how a block scalar is indented, `none` for the whole if that is not at all. -/
def increment? (c : Cursor) : Option (Option Nat × Cursor) :=
  match c.next with
  | some ch =>
    if ch == '0' then none
    else if ch.isDigit then some (some (ch.toNat - '0'.toNat), c.advance)
    else some (none, c)
  | none => some (none, c)

def blockHeader? (c : Cursor) : Option (BlockHeader × Cursor) := do
  match chomping? c with
  | some (chomping, c) =>
    let (increment, c) ← increment? c
    return (⟨chomping, increment⟩, ← c.restOfLine?)
  | none =>
    let (increment, c) ← increment? c
    match increment, chomping? c with
    | some _, some (chomping, c) => return (⟨chomping, increment⟩, ← c.restOfLine?)
    | _, _ => return (⟨.clip, increment⟩, ← c.restOfLine?)

/-- The empty lines in front of a line of a block scalar. -/
structure BlockGap where
  /-- Their line breaks. -/
  breaks : List Char
  /-- The column in which the widest of them, or the line after them, ends or starts. -/
  widest : Nat
  /-- The place in front of that line. -/
  after : Cursor

/-- Reads empty lines and the spaces in front of the line after them, up to the given margin if
there is one. -/
def blockGap? (margin : Option Nat) : Nat → Nat → List Char → Cursor → Option BlockGap
  | 0, _, _, _ => none
  | steps + 1, widest, breaks, c =>
    let spaces := (c.rest.takeWhile (· == ' ')).length
    let c := c.skip <| match margin with
      | none => spaces
      | some margin => min spaces (margin - c.column)
    let widest := max widest c.column
    let inMargin := margin.all (c.column < ·)
    match c.next with
    | some ch =>
      if inMargin && ch == '\t' then none
      else if isBreak ch then blockGap? margin steps widest (breaks ++ [ch]) c.advance
      else some ⟨breaks, widest, c⟩
    | none => some ⟨breaks, widest, c⟩

/-- A block scalar that is being read. -/
structure BlockLines where
  text : List Char := []
  /-- The line break after the last line. -/
  leading : List Char := []
  /-- The line breaks of the empty lines after it. -/
  trailing : List Char
  /-- Whether the last line starts with a blank. -/
  blank : Bool := false

/-- The line breaks between two lines as they read. -/
def BlockLines.separator (isLiteral : Bool) (l : BlockLines) (nextBlank : Bool) : List Char :=
  if !isLiteral && l.leading == ['\n'] && !l.blank && !nextBlank then
    if l.trailing.isEmpty then [' '] else l.trailing
  else l.leading ++ l.trailing

/-- Reads the lines of a block scalar. -/
def blockLines? (isLiteral : Bool) (margin : Nat) :
    Nat → BlockLines → Cursor → Option (BlockLines × Cursor)
  | 0, _, _ => none
  | steps + 1, l, c =>
    if c.column == margin && !c.rest.isEmpty then
      let blank := c.next.any isBlank
      let (line, c) := c.run (!isBreak ·)
      let text := l.text ++ l.separator isLiteral blank ++ line
      match blockGap? (some margin) (c.rest.length + 1) 0 [] c.advance with
      | none => none
      | some gap =>
        blockLines? isLiteral margin steps ⟨text, c.rest.take 1, gap.breaks, blank⟩ gap.after
    else some (l, c)

/-- Reads a block scalar from its indicator. What is around it stands in column `outer - 1`. -/
def block? (isLiteral : Bool) (outer : Nat) (c : Cursor) : Option (List Char × Cursor) := do
  let (header, c) ← blockHeader? c.advance
  let given := header.increment.map (outer - 1 + ·)
  let gap ← blockGap? given (c.rest.length + 1) 0 [] c
  let margin := given.getD (max gap.widest (max outer 1))
  let steps := c.rest.length + 1
  let (l, c) ← blockLines? isLiteral margin steps { trailing := gap.breaks } gap.after
  return match header.chomping with
    | .strip => (l.text, c)
    | .clip => (l.text ++ l.leading, c)
    | .keep => (l.text ++ l.leading ++ l.trailing, c)

end TierIsolation.Yaml
