import TierIsolation.Opener

/-!
# Scripted openers

`Opener.scripted` lets another opener fail at chosen locations, and lets calls to resolvers take
place while entries at chosen locations are opened or read.
-/

namespace TierIsolation.Opener

/-- What happens at a location. -/
inductive Script
  | failOpen (reason : String)
  | failRead (reason : String)
  /-- A resolver resolves a name when the entry is opened for the first time. -/
  | resolveAtOpen (p : Place) (name : String)
  /-- A resolver is released when the entry is opened for the first time. -/
  | releaseAtOpen (p : Place)
  /-- A resolver is released while the entry is read, and the read fails. -/
  | releaseAtRead (p : Place)
  deriving DecidableEq, Repr

/-- The calls that scripts make when an entry is opened for the first time. -/
def Script.callAtOpen? : Script → Option Call
  | resolveAtOpen p name => some (.resolve p name)
  | releaseAtOpen p => some (.release p)
  | _ => none

/-- The fault that scripts make an open end in. -/
def Script.faultAtOpen? : Script → Option OpenerFault
  | failOpen reason => some (.other reason)
  | _ => none

/-- What scripts make of a read. -/
def Script.replyAtRead? : Script → Option (Reply (Option ByteArray))
  | failRead reason => some { answer := .error (.other reason) }
  | releaseAtRead p => some { calls := [.release p], answer := .error .alreadyReleased }
  | _ => none

/-- The opener `o` with scripts for some locations. -/
def scripted (scripts : List (String × Script)) (o : Opener) : Opener where
  openEntry history e :=
    let here := (scripts.filter (·.1 == e.location)).map (·.2)
    match here.findSome? (·.faultAtOpen?) with
    | some fault => plain (.error fault)
    | none =>
      let reply := o.openEntry history e
      if history.hasOpened e.location then reply
      else { reply with calls := reply.calls ++ here.filterMap (·.callAtOpen?) }
  read history h path :=
    let here := (scripts.filter (·.1 == h.entry.location)).map (·.2)
    match here.findSome? (·.replyAtRead?) with
    | some reply => reply
    | none => o.read history h path
  release := o.release

end TierIsolation.Opener
