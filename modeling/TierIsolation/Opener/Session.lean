import TierIsolation.Opener

/-!
# Using an opener directly

Opening, reading and releasing entries one step after the other, without resolvers: all of it
happens at one place (`Session.place`). Each step adds to the history what happened; calls to
resolvers are left out. A `Session` keeps the handles that
were opened, and every `Use` of the opener has an `Answer`.
-/

namespace TierIsolation.Opener

variable (o : Opener)

/-- The place of a session. -/
def Session.place : Place := .resolver 0

def openNow (e : Entry) (history : History) : History × Except OpenerFault Handle :=
  match (o.openEntry history e).answer with
  | .error fault => (.openFailed Session.place e :: history, .error fault)
  | .ok contents =>
    let h : Handle := ⟨history.opens, Session.place, e, contents⟩
    (.opened h :: history, .ok h)

def readNow (h : Handle) (path : String) (history : History) :
    History × Except OpenerFault (Option ByteArray) :=
  match (o.read history h path).answer with
  | .error fault => (.readFailed h path :: history, .error fault)
  | .ok found => (.read h path found.isSome :: history, .ok found)

def releaseNow (h : Handle) (history : History) : History × Except OpenerFault Unit :=
  match o.release history h with
  | some fault => (.released h true :: history, .error fault)
  | none => (.released h false :: history, .ok ())

/-! ## Sessions -/

/-- What can be done with an opener. The entries opened so far are numbered from zero. -/
inductive Use
  | opening (e : Entry)
  | reading (number : Nat) (path : String)
  | releasing (number : Nat)
  deriving DecidableEq, Repr

/-- What an opener was used for so far, and the entries opened by it. -/
structure Session where
  history : History := []
  handles : List Handle := []

/-- What comes of a use. -/
inductive Answer
  /-- The number of the entry that was opened. -/
  | opened (number : Except OpenerFault Nat)
  | read (found : Except OpenerFault (Option ByteArray))
  | released (done : Except OpenerFault Unit)
  /-- No entry of that number was opened. -/
  | noHandle

namespace Session

def use (s : Session) : Use → Session × Answer
  | .opening e =>
    match o.openNow e s.history with
    | (history, .error fault) => ({ s with history }, .opened (.error fault))
    | (history, .ok h) => (⟨history, s.handles ++ [h]⟩, .opened (.ok h.number))
  | .reading number path =>
    match s.handles[number]? with
    | none => (s, .noHandle)
    | some h =>
      let (history, found) := o.readNow h path s.history
      ({ s with history }, .read found)
  | .releasing number =>
    match s.handles[number]? with
    | none => (s, .noHandle)
    | some h =>
      let (history, done) := o.releaseNow h s.history
      ({ s with history }, .released done)

/-- The session after some uses, one after the other. -/
def run (uses : List Use) (s : Session) : Session := uses.foldl (fun s u => (use o s u).1) s

end Session

end TierIsolation.Opener
