import TierIsolation.Artifact

/-!
# Coordinate patterns

A pattern `group:name:kind` selects artifacts. Each of its three segments is a literal, or ends in
a star and then selects every text that starts with what stands before the star
(`SegmentPattern`). A matcher (`CoordinateMatcher`) is a comma separated list of patterns and
accepts what one of them accepts.
-/

namespace TierIsolation

/-- Why a text is not a coordinate pattern. -/
inductive PatternFault
  /-- Not three segments but `found`. -/
  | segmentCount (found : Nat)
  | emptySegment
  deriving DecidableEq, Repr

def PatternFault.reason : PatternFault → String
  | segmentCount found => "expected 3 segments, found " ++ toString found
  | emptySegment => "empty segment"

/-! ## Segments -/

/-- One segment of a pattern. -/
inductive SegmentPattern
  /-- This text and no other. -/
  | exactly (text : List Char)
  /-- Every text that starts with this one. -/
  | startingWith (stem : List Char)
  deriving DecidableEq, Repr

namespace SegmentPattern

/-- Reads a segment; a star at its end stands for any continuation. -/
def parse (raw : List Char) : SegmentPattern :=
  let segment := Text.trim raw
  if segment.getLast? = some '*' then startingWith segment.dropLast else exactly segment

def accepts : SegmentPattern → List Char → Bool
  | exactly text, value => value == text
  | startingWith stem, value => stem.isPrefixOf value

def text : SegmentPattern → List Char
  | exactly text => text
  | startingWith stem => stem ++ ['*']

end SegmentPattern

/-! ## Patterns -/

/-- A pattern for the three parts of an identity. -/
structure CoordinatePattern where
  group : SegmentPattern
  name : SegmentPattern
  kind : SegmentPattern
  deriving DecidableEq, Repr

namespace CoordinatePattern

/-- Reads a single pattern, in which commas are ordinary characters. -/
def parse (pattern : List Char) : Except PatternFault CoordinatePattern :=
  match (Text.trim pattern).splitOn ':' with
  | [group, name, kind] =>
    if [group, name, kind].any Text.blank then .error .emptySegment
    else .ok ⟨.parse group, .parse name, .parse kind⟩
  | found => .error (.segmentCount found.length)

def accepts (p : CoordinatePattern) (a : Artifact) : Bool :=
  p.group.accepts a.identity.group.toList && p.name.accepts a.identity.name.toList &&
    p.kind.accepts a.identity.kind.toList

/-- The written form `group:name:kind`. -/
def text (p : CoordinatePattern) : List Char :=
  [':'].intercalate [p.group.text, p.name.text, p.kind.text]

end CoordinatePattern

/-! ## Matchers -/

/-- An alternative of coordinate patterns. -/
structure CoordinateMatcher where
  patterns : List CoordinatePattern := []
  deriving DecidableEq, Repr, Inhabited

namespace CoordinateMatcher

/-- The pieces of a pattern list: those between commas that are not blank. -/
def pieces (patterns : List Char) : List (List Char) :=
  ((patterns.splitOn ',').map Text.trim).filter (!·.isEmpty)

/-- Reads a comma separated list of patterns. The fault names the first piece at fault. -/
def parse (patterns : List Char) : Except (List Char × PatternFault) CoordinateMatcher :=
  ((pieces patterns).mapM fun piece =>
    (CoordinatePattern.parse piece).mapError fun fault => (piece, fault)).map (⟨·⟩)

def accepts (m : CoordinateMatcher) (a : Artifact) : Bool := m.patterns.any (·.accepts a)

/-- The written form: the patterns between commas. -/
def text (m : CoordinateMatcher) : List Char :=
  [','].intercalate (m.patterns.map (·.text))

end CoordinateMatcher

end TierIsolation
