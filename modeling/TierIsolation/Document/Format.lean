import TierIsolation.Document

/-!
# Formats

A format says how texts, choices, lists and records are read from the trees of some kind, so that
what a configuration consists of is written down once for all of them. `Document.format` is the
format of documents, in which records may also be lists of the values of their fields.
-/

namespace TierIsolation

/-- How values are read from trees of type `δ`. -/
structure Format (δ : Type) where
  text? : δ → Option String
  /-- A text, or nothing at all. -/
  textOrNull? : δ → Option (Option String)
  /-- The name of a choice. -/
  choice? : δ → Option String
  items? : δ → Option (List δ)
  /-- The values of the named fields of a record, in the order of the names. The record has no other
  fields and none of them twice, but it may leave fields out. -/
  record? : List String → δ → Option (List (Option δ))

namespace Format

variable {δ : Type} (f : Format δ)

/-- A list, each of its items read by `read`. -/
def list? {α : Type} (read : δ → Option α) (d : δ) : Option (List α) :=
  (f.items? d).bind (·.mapM read)

def texts? (d : δ) : Option (List String) := f.list? f.text? d

/-- The choice that a name stands for. -/
def named? {α : Type} (choice : String → Option α) (d : δ) : Option α := (f.choice? d).bind choice

end Format

def Document.format : Format Document where
  text? := text?
  textOrNull? := textOrNull?
  choice? := choice?
  items? := items?
  record? names d := if d.onlyFields names then d.fields? names else none

end TierIsolation
