import TierIsolation.Opener

/-!
# Entries held in memory

The opener `Opener.memory` knows the files of every location. Opening and reading never fail; an
unknown location is an entry without files. Releasing fails at the locations set to fail.
-/

namespace TierIsolation.Opener

/-- A file of an entry held in memory. -/
structure StoredFile where
  location : String
  path : String
  bytes : ByteArray

/-- The files at a location; of two files with one path the later counts. -/
def filesAt (stored : List StoredFile) (location : String) : List (String × ByteArray) :=
  ((stored.filter (·.location == location)).map fun f => (f.path, f.bytes)).reverse

def memory (stored : List StoredFile) (failing : List String) : Opener where
  openEntry _ e := plain (.ok (.files (filesAt stored e.location)))
  read _ h path :=
    match h.contents with
    | .files content => plain (.ok (content.lookup path))
    | _ => plain (.ok none)
  release _ h :=
    if h.entry.location ∈ failing then some (.releaseFailed h.entry.location) else none

end TierIsolation.Opener
