/-!
# Characters of YAML

The classes of characters that the rules of YAML speak of, and the texts that may be YAML at all:
`normalise?` refuses a text with a character that is not allowed, and writes every line break that
is not one of Unicode's separators as a line feed.
-/

namespace TierIsolation.Yaml

/-- The characters that may occur in a text: no surrogates, no control characters but the usual
white space. -/
def isAllowed (c : Char) : Bool :=
  let n := c.toNat
  n == 0x09 || n == 0x0A || n == 0x0D || (0x20 ≤ n && n ≤ 0x7E) || n == 0x85 ||
    (0xA0 ≤ n && n ≤ 0xFFFD) || 0x10000 ≤ n

/-- The mark of Unicode texts, which may stand at the start of a line. -/
def isByteOrderMark (c : Char) : Bool := c.toNat == 0xFEFF

/-- The characters that are written as they are between double quotes. -/
def isPrintable (c : Char) : Bool :=
  let n := c.toNat
  n == 0x0A || (0x20 ≤ n && n ≤ 0x7E) ||
    (0xA0 ≤ n && n ≤ 0xFFFD && !isByteOrderMark c) || 0x10000 ≤ n

def isBlank (c : Char) : Bool := c == ' ' || c == '\t'

def isBreak (c : Char) : Bool :=
  let n := c.toNat
  n == 0x0A || n == 0x0D || n == 0x85 || n == 0x2028 || n == 0x2029

def isSpacing (c : Char) : Bool := isBlank c || isBreak c

/-- Does spacing or the end of the text come next? -/
def endsWord : Option Char → Bool
  | none => true
  | some c => isSpacing c

/-- The characters of names. -/
def isNameChar (c : Char) : Bool := c.isAlphanum || c == '_' || c == '-'

/-- The value of a digit in base sixteen. -/
def hexDigit? (c : Char) : Option Nat :=
  if '0' ≤ c ∧ c ≤ '9' then some (c.toNat - '0'.toNat)
  else if 'a' ≤ c ∧ c ≤ 'f' then some (c.toNat - 'a'.toNat + 10)
  else if 'A' ≤ c ∧ c ≤ 'F' then some (c.toNat - 'A'.toNat + 10)
  else none

/-- Every line break but the separators of Unicode written as a line feed. -/
def unifyBreaks : List Char → List Char
  | [] => []
  | '\r' :: '\n' :: rest => '\n' :: unifyBreaks rest
  | c :: rest => (if c == '\r' || c == '\x85' then '\n' else c) :: unifyBreaks rest

/-- A text of allowed characters with unified line breaks. -/
def normalise? (s : List Char) : Option (List Char) :=
  if s.all isAllowed then some (unifyBreaks s) else none

end TierIsolation.Yaml
