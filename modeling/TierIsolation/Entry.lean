import TierIsolation.FileSystem
import TierIsolation.Ordered

/-!
# Class path entries

An entry is a location that code is read from: a directory or an archive. `Entry.ofText` decides
by the extension of the location, `Entry.ofPath` asks the file system first. Locations are written
with slashes, and that of a directory ends in one.
-/

namespace TierIsolation

/-- The physical kind of an entry. -/
inductive EntryKind
  | directory
  | archive
  deriving DecidableEq, Repr, Inhabited

def EntryKind.text : EntryKind → String
  | directory => "directory"
  | archive => "archive"

/-- The place of a kind in the order: directories before archives. -/
def EntryKind.rank : EntryKind → Nat
  | directory => 0
  | archive => 1

instance : Ord EntryKind := ⟨compareOn EntryKind.rank⟩

/-- A location that code is read from. -/
structure Entry where
  location : String
  kind : EntryKind
  deriving DecidableEq, Repr, Inhabited

/-- Entries are ordered by location, character by character, then by kind. -/
instance : Ord Entry where
  compare := compareLex (compareOn Entry.location) (compareOn Entry.kind)

instance : Std.TransOrd EntryKind :=
  inferInstanceAs (Std.TransCmp (compareOn EntryKind.rank))

instance : Std.LawfulEqOrd EntryKind where
  eq_of_compare {a b} h := by
    cases a <;> cases b <;> first | rfl | exact absurd h (by decide)

instance : Std.TransOrd Entry :=
  inferInstanceAs (Std.TransCmp (compareLex (compareOn Entry.location) (compareOn Entry.kind)))

instance : Std.LawfulEqOrd Entry where
  eq_of_compare {a b} h := by
    obtain ⟨l₁, k₁⟩ := a
    obtain ⟨l₂, k₂⟩ := b
    replace h : compareLex (compareOn Entry.location) (compareOn Entry.kind)
      ⟨l₁, k₁⟩ ⟨l₂, k₂⟩ = .eq := h
    rw [compareLex_eq_eq] at h
    have h₁ : l₁ = l₂ := Std.LawfulEqCmp.eq_of_compare h.1
    have h₂ : k₁ = k₂ := Std.LawfulEqCmp.eq_of_compare h.2
    rw [h₁, h₂]

namespace Entry

/-- The extensions of archives. -/
def archiveExtensions : List (List Char) :=
  ["jar".toList, "zip".toList, "tar".toList, "war".toList]

/-- Does a location name an archive? Its extension decides, whatever the case of its letters. -/
def namesArchive (location : List Char) : Bool :=
  location.getLast? != some '/' &&
    match Path.extension? location with
    | some extension => archiveExtensions.contains (Text.lower extension)
    | none => false

def directory (location : String) : Entry :=
  ⟨String.ofList (Path.asFolder (Text.slashes location.toList)), .directory⟩

def archive (location : String) : Entry :=
  ⟨String.ofList (Text.slashes location.toList), .archive⟩

/-- The entry at a location, its kind told from the location. -/
def ofText (location : String) : Entry :=
  let normal := Text.slashes (Text.trim location.toList)
  if namesArchive normal then archive (String.ofList normal)
  else directory (String.ofList normal)

/-- The entry at a path: a directory if the path leads to a folder. -/
def ofPath (fs : FileSystem) (path : String) : Entry :=
  if fs.isFolder path.toList then directory path else ofText path

/-- The entries of a list of paths between colons, the empty ones left out. -/
def ofPathList (fs : FileSystem) (value : String) : List Entry :=
  ((value.toList.splitOn ':').filter (!·.isEmpty)).map fun path => ofPath fs (String.ofList path)

def inspect (e : Entry) : String :=
  Inspection.record "ClasspathEntry"
    [("location", Inspection.quoted e.location),
     ("kind", match e.kind with | .directory => "Directory" | .archive => "Archive")]

end Entry

abbrev EntrySet := OrderedSet Entry

end TierIsolation
