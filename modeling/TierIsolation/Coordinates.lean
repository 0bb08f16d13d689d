import TierIsolation.Artifact

/-!
# Artifact coordinates

Coordinates are the text `group:name:kind:version:scope` of an artifact. `Coordinates.parse` reads
them: five segments between colons, none blank, white space around a segment does not count.
-/

namespace TierIsolation.Coordinates

/-- Why a text is not the coordinates of an artifact. -/
inductive Fault
  /-- Not five segments but `found`. -/
  | segmentCount (found : Nat)
  /-- The segment at this position, counted from one, is blank. -/
  | emptySegment (position : Nat)
  deriving DecidableEq, Repr

def Fault.reason : Fault → String
  | segmentCount found =>
    "expected 5 tokens group:name:type:version:scope, found " ++ toString found
  | emptySegment position => "empty token at position " ++ toString position

/-- The segments between colons, without the white space around them. -/
def segments (coordinates : List Char) : List (List Char) :=
  (coordinates.splitOn ':').map Text.trim

def parse (coordinates : List Char) : Except Fault Artifact :=
  match segments coordinates with
  | [group, name, kind, version, scope] =>
    match [group, name, kind, version, scope].findIdx? (·.isEmpty) with
    | some position => .error (.emptySegment (position + 1))
    | none =>
      .ok {
        identity := ⟨String.ofList group, String.ofList name, String.ofList kind⟩
        version := String.ofList version
        scope := .ofToken (String.ofList scope) }
  | found => .error (.segmentCount found.length)

end TierIsolation.Coordinates
