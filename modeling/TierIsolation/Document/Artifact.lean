import TierIsolation.Artifact
import TierIsolation.Document
import TierIsolation.Entry

/-!
# Artifacts and entries as documents

`toDocument` writes a scope, an identity, an artifact, the kind of an entry or an entry to a
document, `ofDocument?` reads it back. A record is read from an object, in which fields it does not
know are passed over, or from the list of its fields.
-/

namespace TierIsolation

namespace Scope

/-- A scope is its name; any other scope is an object that holds the name as it is. -/
def toDocument : Scope → Document
  | other name => .object [("other", .text name)]
  | known => .text known.text

/-- The scopes without a name of their own. -/
def known? (name : String) : Option Scope :=
  if name = "provided" then some provided
  else if name = "compile" then some compile
  else if name = "test" then some test
  else none

def ofDocument? : Document → Option Scope
  | .object [("other", .text name)] => some (other name)
  | d => d.choice?.bind known?

end Scope

namespace Identity

def fieldNames : List String := ["group", "name", "type"]

def toDocument (i : Identity) : Document :=
  .object [("group", .text i.group), ("name", .text i.name), ("type", .text i.kind)]

def ofDocument? (d : Document) : Option Identity := do
  match ← d.fields? fieldNames with
  | [some group, some name, some kind] =>
    return ⟨← group.text?, ← name.text?, ← kind.text?⟩
  | _ => none

end Identity

namespace Artifact

def fieldNames : List String := ["key", "version", "scope"]

/-- An artifact as a record. -/
def toDocument (a : Artifact) : Document :=
  .object [("key", a.identity.toDocument), ("version", .text a.version),
    ("scope", a.scope.toDocument)]

def ofDocument? (d : Document) : Option Artifact := do
  match ← d.fields? fieldNames with
  | [some key, some version, some scope] =>
    return ⟨← Identity.ofDocument? key, ← version.text?, ← Scope.ofDocument? scope⟩
  | _ => none

end Artifact

namespace EntryKind

def named? (name : String) : Option EntryKind :=
  if name = "directory" then some directory
  else if name = "archive" then some archive
  else none

/-- A kind is its name. -/
def toDocument (k : EntryKind) : Document := .text k.text

def ofDocument? (d : Document) : Option EntryKind := d.choice?.bind named?

end EntryKind

namespace Entry

def fieldNames : List String := ["location", "kind"]

def toDocument (e : Entry) : Document :=
  .object [("location", .text e.location), ("kind", e.kind.toDocument)]

/-- Reads an entry; its location is taken as it is. -/
def ofDocument? (d : Document) : Option Entry := do
  match ← d.fields? fieldNames with
  | [some location, some kind] => return ⟨← location.text?, ← EntryKind.ofDocument? kind⟩
  | _ => none

end Entry

end TierIsolation
