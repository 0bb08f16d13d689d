/-!
# Text as a list of characters

The text operations that the rest of the library is written with. They work on `List Char`, so that
each is a short recursion on its input: `trim` removes white space at both ends, `splitOnce` and
`afterLast` cut at the first and the last occurrence of a needle, `lines` and `words` cut a text into
its lines and its white-space separated words, and `lower` folds ASCII letters.

A string enters by `String.toList` and leaves by `String.ofList`.
-/

namespace TierIsolation.Text

/-! ## Character classes -/

/-- The characters with the Unicode property `White_Space`. -/
def isBlank (c : Char) : Bool :=
  let n := c.toNat
  (0x09 ≤ n && n ≤ 0x0D) || n == 0x20 || n == 0x85 || n == 0xA0 || n == 0x1680 ||
    (0x2000 ≤ n && n ≤ 0x200A) || n == 0x2028 || n == 0x2029 || n == 0x202F || n == 0x205F ||
    n == 0x3000

/-! ## Trimming -/

/-- Drops the longest tail whose characters all satisfy `p`. -/
def dropEndWhile (p : Char → Bool) (s : List Char) : List Char :=
  (s.reverse.dropWhile p).reverse

/-- Drops the characters satisfying `p` at both ends. -/
def dropBothWhile (p : Char → Bool) (s : List Char) : List Char :=
  dropEndWhile p (s.dropWhile p)

/-- Removes white space at both ends. -/
def trim (s : List Char) : List Char := dropBothWhile isBlank s

/-- Only white space, or nothing at all. -/
def blank (s : List Char) : Bool := s.all isBlank

/-! ## Searching and cutting -/

/-- The parts before and after the first occurrence of `needle`. -/
def splitOnce (needle : List Char) (s : List Char) : Option (List Char × List Char) :=
  match needle.isPrefixOf? s with
  | some rest => some ([], rest)
  | none =>
    match s with
    | [] => none
    | c :: t => (splitOnce needle t).map fun (before, after) => (c :: before, after)

def occurs (needle s : List Char) : Bool := (splitOnce needle s).isSome

/-- The part after the last occurrence of `needle`, the one that starts furthest right. -/
def afterLast (needle : List Char) : List Char → Option (List Char)
  | [] => needle.isPrefixOf? []
  | c :: t =>
    match afterLast needle t with
    | some rest => some rest
    | none => needle.isPrefixOf? (c :: t)

/-- The text before the first character satisfying `p`. -/
def before (p : Char → Bool) (s : List Char) : List Char := s.takeWhile (!p ·)

/-- The text between the first two occurrences of `quote`. -/
def between (quote : Char) (s : List Char) : Option (List Char) := do
  let (_, rest) ← splitOnce [quote] s
  let (inner, _) ← splitOnce [quote] rest
  return inner

/-- The maximal runs of characters that are not blank. -/
def words (s : List Char) : List (List Char) :=
  (s.splitOnP isBlank).filter (!·.isEmpty)

/-- Removes one carriage return at the end. -/
def dropReturn (s : List Char) : List Char :=
  if s.getLast? = some '\r' then s.dropLast else s

/-- The lines of a text. A line ends at a line feed, which may follow a carriage return; what
remains after the last line feed is a line if it is not empty. -/
def lines (s : List Char) : List (List Char) :=
  let pieces := s.splitOn '\n'
  let rest := pieces.getLastD []
  pieces.dropLast.map dropReturn ++ if rest.isEmpty then [] else [rest]

/-! ## Case and replacement -/

/-- ASCII capital letters in lower case, every other character unchanged. -/
def lower (s : List Char) : List Char := s.map Char.toLower

/-- Every occurrence of `old` replaced by `new`. -/
def replace (old new : Char) (s : List Char) : List Char :=
  s.map fun c => if c = old then new else c

def slashes (s : List Char) : List Char := replace '\\' '/' s

end TierIsolation.Text
