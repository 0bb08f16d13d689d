import TierIsolation.Yaml.Cursor

/-!
# Scalars that run over lines

Quoted scalars and plain scalars may run over several lines. A single line break in them reads as a
space and of several the first is dropped (`joined`); white space next to a break is dropped too.
`quoted?` reads what stands between quotes, `plain?` a plain scalar.
-/

namespace TierIsolation.Yaml

/-- Line breaks as they read inside a scalar. -/
def folded : List Char → List Char
  | ['\n'] => [' ']
  | '\n' :: more => more
  | breaks => breaks

/-- Spacing as it reads inside a scalar. -/
def joined (spacing : List Char) : List Char :=
  if spacing.any isBreak then folded (spacing.filter isBreak) else spacing

/-! ## Quoted scalars -/

/-- What a letter stands for after a backslash. -/
def escaped? : Char → Option Char
  | '0' => some '\x00'
  | 'a' => some '\x07'
  | 'b' => some '\x08'
  | 't' => some '\t'
  | '\t' => some '\t'
  | 'n' => some '\n'
  | 'v' => some '\x0b'
  | 'f' => some '\x0c'
  | 'r' => some '\r'
  | 'e' => some '\x1b'
  | ' ' => some ' '
  | '\x22' => some '\x22'
  | '/' => some '/'
  | '\\' => some '\\'
  | 'N' => some '\x85'
  | '_' => some '\u00a0'
  | 'L' => some '\u2028'
  | 'P' => some '\u2029'
  | _ => none

/-- How many digits of a character's number follow a letter after a backslash. -/
def escapeWidth? : Char → Option Nat
  | 'x' => some 2
  | 'u' => some 4
  | 'U' => some 8
  | _ => none

/-- The character with a number given by its digits in base sixteen. -/
def charOfHex? (digits : List Char) : Option Char := do
  let n ← digits.foldlM (fun n c => (hexDigit? c).map (16 * n + ·)) 0
  if n.isValidChar then some (Char.ofNat n) else none

/-- The quote around a scalar. -/
def quoteOf (double : Bool) : Char := if double then '\x22' else '\x27'

/-- Reads the rest of a quoted scalar. What has been read is `read`, its last character first;
`steps` is at least the number of characters left. -/
def quotedRest? (double : Bool) :
    Nat → Cursor → List Char → Option (List Char × Cursor)
  | 0, _, _ => none
  | steps + 1, c, read =>
    match c.rest with
    | [] => none
    | ch :: after =>
      if isSpacing ch then
        let (spacing, c) := c.run isSpacing
        if c.atMarker then none
        else quotedRest? double steps c ((joined spacing).reverse ++ read)
      else if !double && ch == '\x27' && after.head? == some '\x27' then
        quotedRest? double steps (c.skip 2) ('\x27' :: read)
      else if ch == quoteOf double then some (read.reverse, c.advance)
      else if double && ch == '\\' then
        match after with
        | [] => none
        | letter :: digits =>
          if isBreak letter then
            let (spacing, c) := (c.skip 2).run isSpacing
            if c.atMarker then none
            else quotedRest? double steps c ((spacing.filter isBreak).reverse ++ read)
          else
            match escaped? letter, escapeWidth? letter with
            | some meant, _ => quotedRest? double steps (c.skip 2) (meant :: read)
            | none, some width =>
              if digits.length < width then none
              else
                match charOfHex? (digits.take width) with
                | some meant => quotedRest? double steps (c.skip (2 + width)) (meant :: read)
                | none => none
            | none, none => none
      else quotedRest? double steps c.advance (ch :: read)

def quoted? (double : Bool) (c : Cursor) : Option (List Char × Cursor) :=
  quotedRest? double (c.rest.length + 1) c.advance []

/-! ## Plain scalars -/

/-- The characters that structure lists and objects in one line. -/
def isFlowIndicator (c : Char) : Bool :=
  c == ',' || c == '[' || c == ']' || c == '\x7b' || c == '\x7d'

/-- The longest start of a text that is one word of a plain scalar. -/
def plainWord? (inFlow : Bool) : List Char → Option (List Char)
  | [] => some []
  | ch :: rest =>
    if isSpacing ch then some []
    else if ch == ':' && inFlow && rest.head?.any (fun c => isFlowIndicator c || c == '?') then none
    else if ch == ':' && endsWord rest.head? then some []
    else if inFlow && isFlowIndicator ch then some []
    else (plainWord? inFlow rest).map (ch :: ·)

/-- Is there a tab in the margin of a line, when the text starts in the given column? -/
def tabInMargin (margin : Nat) : Nat → List Char → Bool
  | _, [] => false
  | column, ch :: rest =>
    if isBreak ch then tabInMargin margin 0 rest
    else (ch == '\t' && column < margin) || tabInMargin margin (column + 1) rest

/-- Is there a tab in the margin of a line that starts in this spacing? -/
def tabAfterBreak (margin : Nat) (spacing : List Char) : Bool :=
  tabInMargin margin 0 ((spacing.dropWhile (!isBreak ·)).drop 1)

/-- A plain scalar that has been read. -/
structure PlainScalar where
  text : List Char
  /-- The place behind the scalar and the spacing after it. -/
  after : Cursor
  /-- Whether that spacing holds a line break. -/
  broken : Bool

/-- Reads the rest of a plain scalar, `spacing` after what has been read. -/
def plainRest? (inFlow : Bool) (margin : Nat) :
    Nat → Cursor → List Char → List Char → Option PlainScalar
  | 0, _, _, _ => none
  | steps + 1, c, read, spacing =>
    let done : PlainScalar := ⟨read.reverse, c, spacing.any isBreak⟩
    if c.atMarker || c.next == some '#' then some done
    else
      match plainWord? inFlow c.rest with
      | none => none
      | some [] => some done
      | some word =>
        let read := word.reverse ++ (joined spacing).reverse ++ read
        let c := c.skip word.length
        let (spacing, after) := c.run isSpacing
        if spacing.isEmpty then some ⟨read.reverse, c, false⟩
        else if tabAfterBreak margin spacing then none
        else if !inFlow && after.column < margin then
          some ⟨read.reverse, after, spacing.any isBreak⟩
        else plainRest? inFlow margin steps after read spacing

/-- Reads a plain scalar. In a block, its lines start in column `margin` or further right. -/
def plain? (inFlow : Bool) (margin : Nat) (c : Cursor) : Option PlainScalar :=
  plainRest? inFlow margin (c.rest.length + 1) c [] []

end TierIsolation.Yaml
