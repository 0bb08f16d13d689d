import TierIsolation.Ordered
import TierIsolation.Text.Inspection

/-!
# Look-up policies

A policy says for every name whether a resolver asks its parent, searches its own entries, or both
and in which order. It has a mode for some beginnings of names, and one for all other names;
`LookupPolicy.modeFor` goes by the longest beginning.
-/

namespace TierIsolation

/-- How a resolver treats a name. -/
inductive LookupMode
  /-- The parent first, then the resolver's own entries. -/
  | parentFirst
  | parentOnly
  /-- The resolver's own entries first, then the parent. -/
  | selfFirst
  deriving DecidableEq, Repr, Inhabited

namespace LookupMode

def inspect : LookupMode → String
  | parentFirst => "ParentFirst"
  | parentOnly => "ParentOnly"
  | selfFirst => "SelfFirst"

end LookupMode

/-- A mode for some beginnings of names, and one for all other names. -/
structure LookupPolicy where
  rules : Table LookupMode := .empty
  default : LookupMode := .selfFirst

namespace LookupPolicy

instance : Inhabited LookupPolicy := ⟨{}⟩

/-- The policy with a rule for names that start with `stem`, instead of one it had for them. -/
def addRule (p : LookupPolicy) (stem : String) (mode : LookupMode) : LookupPolicy :=
  { p with rules := p.rules.insert stem mode }

def addRules (p : LookupPolicy) (rules : List (String × LookupMode)) : LookupPolicy :=
  rules.foldl (fun p (stem, mode) => p.addRule stem mode) p

/-- The rule with the longer beginning of names, the later of two with equally long ones. -/
def longer (best : Option (String × LookupMode)) (rule : String × LookupMode) :
    Option (String × LookupMode) :=
  match best with
  | none => some rule
  | some other => if rule.1.length < other.1.length then some other else some rule

def applicable (p : LookupPolicy) (name : String) : List (String × LookupMode) :=
  p.rules.entries.filter fun (stem, _) => stem.toList.isPrefixOf name.toList

/-- The mode for a name: that of the longest beginning it has. -/
def modeFor (p : LookupPolicy) (name : String) : LookupMode :=
  match (p.applicable name).foldl longer none with
  | some (_, mode) => mode
  | none => p.default

def inspect (p : LookupPolicy) : String :=
  Inspection.record "LookupPolicy"
    [("rules", Inspection.table (p.rules.entries.map fun (stem, mode) =>
        (Inspection.quoted stem, mode.inspect))),
     ("default_mode", p.default.inspect)]

end LookupPolicy

end TierIsolation
