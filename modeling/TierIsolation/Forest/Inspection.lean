import TierIsolation.Forest.State

/-!
# Resolvers written out for inspection

`Forest.inspect` shows a resolver as a structured value: what it was built from, and whether it was
released.
-/

namespace TierIsolation.Forest

variable (F : Forest)

/-- The name of the host that a resolver has, whether or not it asks it. -/
def hostName (p : Place) : String :=
  match (F.resolver p).host with
  | some k => (F.host k).name
  | none => Host.empty.name

def parentName? (p : Place) : Option String := (F.parent? p).map fun q => (F.resolver q).name

def inspect (p : Place) (s : State) : String :=
  let r := F.resolver p
  Inspection.record "NamespaceResolver"
    [("name", Inspection.quoted r.name),
     ("search_path", Inspection.list (r.searchPath.map Entry.inspect)),
     ("parent", Inspection.optional ((F.parentName? p).map Inspection.quoted)),
     ("host", Inspection.quoted (F.hostName p)),
     ("host_fallback", r.fallback.inspect),
     ("policy", r.policy.inspect),
     ("released", Inspection.truth (s.resolver p).released)]

end TierIsolation.Forest
