import TierIsolation.Forest.State
import TierIsolation.ResolutionFault

/-!
# Resolution

`Forest.resolve` resolves a name at a resolver: a released resolver refuses, a name resolved before
has its symbol, and any other name is searched for in the resolver's own entries and at its source,
in the order that its policy says. Only what was found is remembered. `Forest.release` releases
everything that a resolver holds.

Entries are opened when they are first searched and held until the resolver is released. The calls
that an opener asks for are carried out where they take place; a call may lead to further calls, and
the first argument of `Forest.runCall` bounds how deeply they are followed.
-/

namespace TierIsolation.Forest

variable (F : Forest)

/-- A state, and the result that led to it. -/
abbrev Outcome (α : Type) := State × Except ResolutionFault α

/-! ## Releasing -/

/-- Releases a handle of a resolver and says whether that failed. -/
def releaseHandle (p : Place) (h : Handle) (s : State) : State × Bool :=
  let failed := ((F.opener p).release s.history h).isSome
  (s.record (.released h failed), failed)

/-- Releases handles one after the other and counts failures. -/
def releaseAll (p : Place) : List Handle → State → State × Nat
  | [], s => (s, 0)
  | h :: rest, s =>
    let (s, failed) := F.releaseHandle p h s
    let (s, failures) := releaseAll p rest s
    (s, failed.toNat + failures)

/-- Releases a resolver with everything it holds, and counts failures. -/
def release (p : Place) (s : State) : State × Nat :=
  F.releaseAll p ((s.resolver p).handles.map (·.2)) (s.update p ResolverState.release)

/-! ## Entries -/

section Entries

variable (call : Call → State → State)

def runCalls (calls : List Call) (s : State) : State := calls.foldl (fun s c => call c s) s

/-- Keeps an opened entry. If the resolver was released meanwhile, or holds that entry already, the
new handle is released. -/
def keepHandle (p : Place) (index : Nat) (h : Handle) (s : State) : Outcome Handle :=
  if (s.resolver p).released then
    ((F.releaseHandle p h s).1, .error (.released (F.resolver p).name))
  else
    match (s.resolver p).handle? index with
    | some held => ((F.releaseHandle p h s).1, .ok held)
    | none => (s.update p (·.hold index h), .ok h)

/-- The handle of the entry at a position of a search path; the entry is opened if need be. -/
def handleAt (p : Place) (index : Nat) (e : Entry) (s : State) : Outcome Handle :=
  if (s.resolver p).released then (s, .error (.released (F.resolver p).name))
  else
    match (s.resolver p).handle? index with
    | some held => (s, .ok held)
    | none =>
      let reply := (F.opener p).openEntry s.history e
      match reply.answer with
      | .error fault =>
        (runCalls call reply.calls (s.record (.openFailed p e)),
          .error (.entryFailed e.location (F.resolver p).name fault.message))
      | .ok contents =>
        let h : Handle := ⟨s.history.opens, p, e, contents⟩
        F.keepHandle p index h (runCalls call reply.calls (s.record (.opened h)))

def readFrom (p : Place) (h : Handle) (e : Entry) (path : String) (s : State) :
    Outcome (Option ByteArray) :=
  let reply := (F.opener p).read s.history h path
  let s := runCalls call reply.calls s
  match reply.answer with
  | .ok found => (s.record (.read h path found.isSome), .ok found)
  | .error fault =>
    (s.record (.readFailed h path),
      .error (if (s.resolver p).released then .released (F.resolver p).name
        else .entryFailed e.location (F.resolver p).name fault.message))

/-- Searches entries of a search path, the first of them at the position `index`. -/
def searchEntries (p : Place) (name path : String) :
    Nat → List Entry → State → Outcome (Option Symbol)
  | _, [], s => (s, .ok none)
  | index, e :: rest, s =>
    match F.handleAt call p index e s with
    | (s, .error fault) => (s, .error fault)
    | (s, .ok h) =>
      match F.readFrom call p h e path s with
      | (s, .error fault) => (s, .error fault)
      | (s, .ok (some bytes)) => (s, .ok (some ⟨name, e, (F.resolver p).name, bytes⟩))
      | (s, .ok none) => searchEntries p name path (index + 1) rest s

def searchOwn (p : Place) (name : String) (s : State) : Outcome (Option Symbol) :=
  let r := F.resolver p
  F.searchEntries call p name (Symbol.path name r.suffix) 0 r.searchPath s

end Entries

/-! ## Names -/

/-- A fault that only says that nothing was found is no fault. -/
def orNothing : Outcome Symbol → Outcome (Option Symbol)
  | (s, .ok symbol) => (s, .ok (some symbol))
  | (s, .error fault) => if fault.isNotFound then (s, .ok none) else (s, .error fault)

/-- Two searches, the second one if the first finds nothing. -/
def orElse (first second : State → Outcome (Option Symbol)) (s : State) :
    Outcome (Option Symbol) :=
  match first s with
  | (s, .ok none) => second s
  | found => found

/-- The searches of a mode: at the source, among the own entries, or both. -/
def searchBy (mode : LookupMode) (source own : State → Outcome (Option Symbol)) :
    State → Outcome (Option Symbol) :=
  match mode with
  | .parentOnly => source
  | .parentFirst => orElse source own
  | .selfFirst => orElse own source

/-- Resolves a name by a search, unless it was resolved before. -/
def resolveBy (p : Place) (name : String) (search : State → Outcome (Option Symbol))
    (s : State) : Outcome Symbol :=
  if (s.resolver p).released then (s, .error (.released (F.resolver p).name))
  else
    match (s.resolver p).cached? name with
    | some symbol => (s, .ok symbol)
    | none =>
      match search s with
      | (s, .ok (some symbol)) => (s.update p (·.remember name symbol), .ok symbol)
      | (s, .ok none) => (s, .error (.notFound name (F.resolver p).name))
      | (s, .error fault) => (s, .error fault)

def resolveWith (call : Call → State → State) (p : Place) (name : String) :
    State → Outcome Symbol :=
  let mode := (F.resolver p).policy.modeFor name
  let askSource : State → Outcome (Option Symbol) :=
    match h : F.source p mode with
    | .nothing => fun s => (s, .ok none)
    | .table host symbols => fun s => (s, .ok ((symbols.get? name).map (Host.symbol host name)))
    | .resolver q =>
      have := rank_source h
      fun s => orNothing (resolveWith call q name s)
  F.resolveBy p name (searchBy mode askSource (F.searchOwn call p name))
termination_by p.rank

/-- Carries out a call. Calls that take place meanwhile are followed down to the given depth. -/
def runCall : Nat → Call → State → State
  | 0, _, s => s
  | depth + 1, .resolve p name, s => (F.resolveWith (runCall depth) p name s).1
  | _ + 1, .release p, s => (F.release p s).1

/-- Resolves a name at a resolver. Calls that take place meanwhile are followed down to the given
depth. -/
def resolve (depth : Nat) (p : Place) (name : String) (s : State) : Outcome Symbol :=
  F.resolveWith (F.runCall depth) p name s

/-- Resolves a name that may have no symbol. -/
def tryResolve (depth : Nat) (p : Place) (name : String) (s : State) : Outcome (Option Symbol) :=
  orNothing (F.resolve depth p name s)

/-- Asks a host for a name. -/
def hostLookup (depth : Nat) (number : Nat) (name : String) (s : State) :
    Outcome (Option Symbol) :=
  match F.hostSource number with
  | .nothing => (s, .ok none)
  | .table host symbols => (s, .ok ((symbols.get? name).map (Host.symbol host name)))
  | .resolver p => F.tryResolve depth p name s

/-- Releases a host with everything its resolver holds. -/
def releaseHost (number : Nat) (s : State) : State × Nat :=
  match F.hostSource number with
  | .resolver p => F.release p s
  | _ => (s, 0)

/-- Resolves one name several times, one after the other, as several threads do that wait for each
other. Once a search has succeeded, everybody gets what it found; after one that failed, the next
one searches again. -/
def resolveTimes (depth : Nat) (p : Place) (name : String) :
    Nat → State → State × List (Except ResolutionFault Symbol)
  | 0, s => (s, [])
  | times + 1, s =>
    let (s, result) := F.resolve depth p name s
    let (s, results) := resolveTimes depth p name times s
    (s, result :: results)

end TierIsolation.Forest
