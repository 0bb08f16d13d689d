import TierIsolation.Archive
import TierIsolation.Entry

/-!
# Openers

An opener opens the entries of a search path, reads from them and releases them. What it answers may
depend on everything that happened before: the history of opens, reads and releases, the newest
`Event` first. While an entry is opened or read, calls to resolvers may take place (`Call`), which
whoever runs the opener carries out; an opener is only a description of its answers.

The number of a handle is the number of entries opened before it, so a handle is opened once.
-/

namespace TierIsolation

/-- Why an entry cannot be opened, read or released. -/
inductive OpenerFault
  /-- The entry is an archive of a kind that cannot be read. -/
  | unsupportedFormat (location : String)
  | archive (fault : ArchiveFault)
  | alreadyReleased
  /-- More memory is asked for than there can be. Nothing is answered then: the read is cut off, and
  so is whoever called for it. -/
  | capacityOverflow
  | releaseFailed (location : String)
  | other (reason : String)
  deriving DecidableEq, Repr

def OpenerFault.message : OpenerFault → String
  | unsupportedFormat location => "unsupported archive format: " ++ location
  | archive fault => fault.message
  | alreadyReleased => "archive already released"
  | capacityOverflow => "capacity overflow"
  | releaseFailed location => "release of " ++ location ++ " failed"
  | other reason => reason

/-- What an opened entry holds. -/
inductive Contents
  /-- A folder of the file system. -/
  | folder (path : String)
  /-- An archive, as it was when it was opened. -/
  | archive (a : OpenArchive)
  /-- Files held in memory, by their paths. -/
  | files (content : List (String × ByteArray))

def Contents.nothing : Contents := .files []

/-- Where a resolver stands: behind the host of a number, or among the others by its own number. -/
inductive Place
  | host (number : Nat)
  | resolver (index : Nat)
  deriving DecidableEq, Repr, Inhabited

structure Handle where
  number : Nat
  /-- The resolver that the entry was opened for. -/
  place : Place
  entry : Entry
  contents : Contents

/-- Something that happened to an entry. -/
inductive Event
  | opened (h : Handle)
  | openFailed (p : Place) (e : Entry)
  | read (h : Handle) (path : String) (found : Bool)
  | readFailed (h : Handle) (path : String)
  | released (h : Handle) (failed : Bool)

/-- What happened so far, the newest event first. -/
abbrev History := List Event

namespace History

/-- The number of entries that were opened. -/
def opens (h : History) : Nat :=
  h.countP fun
    | .opened _ => true
    | _ => false

theorem opens_cons (e : Event) (h : History) :
    opens (e :: h) = opens h + match e with | .opened _ => 1 | _ => 0 := by
  cases e <;> simp [opens]

/-- The number of reads that did not fail. -/
def reads (h : History) : Nat :=
  h.countP fun
    | .read .. => true
    | _ => false

/-- The number of reads that found something. -/
def hits (h : History) : Nat :=
  h.countP fun
    | .read _ _ found => found
    | _ => false

/-- The handles that were released, in order. -/
def released (h : History) : List Handle :=
  h.reverse.filterMap fun
    | .released handle _ => some handle
    | _ => none

/-- The locations of the handles that were released, in order. -/
def releasedLocations (h : History) : List String := h.released.map (·.entry.location)

def hasReleased (h : History) (handle : Handle) : Bool :=
  h.released.any (·.number == handle.number)

theorem released_cons (e : Event) (h : History) :
    released (e :: h) = released h ++ match e with | .released handle _ => [handle] | _ => [] := by
  cases e <;> simp [released]

theorem mem_released {h : History} {handle : Handle} :
    handle ∈ h.released ↔ ∃ failed, Event.released handle failed ∈ h := by
  simp only [released, List.mem_filterMap, List.mem_reverse]
  constructor
  · rintro ⟨e, he, hh⟩
    split at hh
    · cases hh
      exact ⟨_, he⟩
    · cases hh
  · rintro ⟨failed, he⟩
    exact ⟨_, he, rfl⟩

theorem mem_released_cons {e : Event} {h : History} {handle : Handle} :
    handle ∈ released (e :: h) ↔ (∃ failed, e = .released handle failed) ∨ handle ∈ h.released := by
  simp only [mem_released, List.mem_cons, exists_or, eq_comm]

theorem hasReleased_eq_false {h : History} {handle : Handle} :
    h.hasReleased handle = false ↔ ∀ other ∈ h.released, other.number ≠ handle.number := by
  simp [hasReleased]

theorem hasReleased_cons (e : Event) (h : History) (handle : Handle) :
    hasReleased (e :: h) handle = (hasReleased h handle ||
      match e with | .released other _ => other.number == handle.number | _ => false) := by
  rw [hasReleased, released_cons, List.any_append, ← hasReleased]
  cases e <;> simp

/-- Was an entry at this location opened? -/
def hasOpened (h : History) (location : String) : Bool :=
  h.any fun
    | .opened handle => handle.entry.location == location
    | _ => false

end History

/-- A call to a resolver that takes place while an entry is opened or read. -/
inductive Call
  | resolve (p : Place) (name : String)
  | release (p : Place)
  deriving DecidableEq, Repr

/-- What an opener answers, after some calls. -/
structure Reply (α : Type) where
  calls : List Call := []
  answer : Except OpenerFault α

/-- Opens, reads and releases entries. -/
structure Opener where
  /-- Opens an entry. The calls take place when it is open. -/
  openEntry : History → Entry → Reply Contents
  /-- Reads the file at a path inside an opened entry, if there is one. -/
  read : History → Handle → String → Reply (Option ByteArray)
  /-- Releases an opened entry and says what failed. -/
  release : History → Handle → Option OpenerFault

namespace Opener

/-- An answer without calls. -/
def plain {α : Type} (answer : Except OpenerFault α) : Reply α := { answer }

end Opener

end TierIsolation
