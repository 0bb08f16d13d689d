/-!
# Documents

A document is a tree of lists, objects and simple values. Values of the library are written to
documents and read back from them; the texts of a document are in `TierIsolation.Document.Json` and
`TierIsolation.Yaml.Printer`.
-/

namespace TierIsolation

/-- A tree of lists, objects and simple values. -/
inductive Document
  | null
  | truth (b : Bool)
  /-- The number `mantissa / 10 ^ decimals`. -/
  | number (mantissa : Int) (decimals : Nat)
  | text (s : String)
  | list (items : List Document)
  /-- An object lists its fields in order. -/
  | object (fields : List (String × Document))
  deriving Repr, Inhabited

namespace Document

def text? : Document → Option String
  | text s => some s
  | _ => none

/-- A text, or null for no text. -/
def textOrNull? : Document → Option (Option String)
  | null => some none
  | text s => some (some s)
  | _ => none

def items? : Document → Option (List Document)
  | list items => some items
  | _ => none

/-- A text, or null if there is none. -/
def ofText? : Option String → Document
  | none => null
  | some s => text s

/-- The name of a plain choice: the name itself, or an object with the name over null. -/
def choice? : Document → Option String
  | text name => some name
  | object [(name, null)] => some name
  | _ => none

/-! ## Records -/

/-- The value of a field, `none` for the whole if the field occurs more than once. -/
def field? (fields : List (String × Document)) (name : String) : Option (Option Document) :=
  match fields.filter (·.1 == name) with
  | [] => some none
  | [(_, value)] => some (some value)
  | _ => none

/-- The values of the named fields of a record, in the order of the names. A record is an object,
which may leave fields out, or a list of the values of the first fields. -/
def fields? (names : List String) : Document → Option (List (Option Document))
  | object fields => names.mapM (field? fields)
  | list items =>
    if items.length ≤ names.length then
      some (items.map some ++ List.replicate (names.length - items.length) none)
    else none
  | _ => none

/-- Does an object have only fields with these names? -/
def onlyFields (names : List String) : Document → Bool
  | object fields => fields.all fun (name, _) => names.contains name
  | _ => true

end Document

end TierIsolation
