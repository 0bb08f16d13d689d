/-!
# Faults of a resolution

What can go wrong when a resolver looks for a symbol: nothing has the name, an entry fails, or a
resolver is asked that was released before. Each fault names the resolver it happened in.
-/

namespace TierIsolation

/-- Why a symbol was not resolved. -/
inductive ResolutionFault
  /-- Neither `resolver` nor what it delegates to has the name. -/
  | notFound (name resolver : String)
  /-- An entry of `resolver` could not be opened or read. -/
  | entryFailed (location resolver reason : String)
  | released (resolver : String)
  deriving DecidableEq, Repr

namespace ResolutionFault

/-- Does the fault say that nothing has the name? -/
def isNotFound : ResolutionFault → Bool
  | notFound .. => true
  | _ => false

def message : ResolutionFault → String
  | notFound name resolver => "Symbol '" ++ name ++ "' not found by resolver '" ++ resolver ++ "'"
  | entryFailed location resolver reason =>
    "Entry '" ++ location ++ "' failed in resolver '" ++ resolver ++ "': " ++ reason
  | released resolver => "Resolver '" ++ resolver ++ "' has been released"

end ResolutionFault

end TierIsolation
