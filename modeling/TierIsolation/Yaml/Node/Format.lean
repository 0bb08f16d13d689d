import TierIsolation.Document.Format
import TierIsolation.Yaml.Node
import TierIsolation.Yaml.Scalar

/-!
# Reading values from nodes

What a node reads as depends on what is asked for: every scalar is a text, and nothing where a node
could be is an empty list or a record that leaves out all its fields. A choice can be named by the
tag of a scalar that is null (`choiceName?`).
-/

namespace TierIsolation.Yaml

def nullTag : Address := Address.ofAscii "tag:yaml.org,2002:null".toList

def integerTag : Address := Address.ofAscii "tag:yaml.org,2002:int".toList

/-- The choice that a tag names: what follows an exclamation mark, if it is UTF-8. -/
def choiceName? (tag : Address) : Option String :=
  if tag.head? == some 0x21 then String.fromUTF8? ⟨(tag.drop 1).toArray⟩ else none

namespace Tree

variable (t : Tree)

/-- A scalar is a text, however it is written. -/
def text? (n : Node) : Option String :=
  match t.target n with
  | .scalar _ _ text => some text
  | _ => none

/-- Does a node stand for something? Nothing is a plain scalar that is empty or null; with the tag of
null, a plain scalar must be null. -/
def present? (n : Node) : Option Bool :=
  match t.target n with
  | .scalar p style text =>
    if style != .plain then some true
    else
      match p.tag with
      | none => some (!text.isEmpty && !Scalar.isNull text)
      | some tag =>
        if tag != nullTag then some true else if Scalar.isNull text then some false else none
  | _ => some true

/-- Reads a value that may be missing. -/
def orNull? {α : Type} (read : Node → Option α) (n : Node) : Option (Option α) :=
  match t.present? n with
  | none => none
  | some false => some none
  | some true => (read n).map some

/-- The name of a choice: a text, or the tag of null. -/
def choice? (n : Node) : Option String :=
  match t.target n with
  | .scalar p style text =>
    match p.tag.bind choiceName? with
    | some name =>
      if style == .plain && (text.isEmpty || Scalar.isNull text) then some name else none
    | none => some text
  | _ => none

/-- Is a node nothing where a list or a record could be? -/
def isNothing (n : Node) : Bool :=
  match n with
  | .scalar _ .plain text => text.isEmpty
  | _ => false

def items? (n : Node) : Option (List Node) :=
  match t.target n with
  | .sequence _ items => some items
  | n => if isNothing n then some [] else none

/-- The value of a field, `none` for the whole if the field occurs more than once. -/
def field? (fields : List (String × Node)) (name : String) : Option (Option Node) :=
  match fields.filter (·.1 == name) with
  | [] => some none
  | [(_, value)] => some (some value)
  | _ => none

/-- The values of the named fields of a record that has no others. -/
def record? (names : List String) (n : Node) : Option (List (Option Node)) :=
  match t.target n with
  | .mapping _ pairs =>
    match pairs.mapM fun (k, v) => (t.text? k).map (·, v) with
    | some fields =>
      if fields.all fun (name, _) => names.contains name then names.mapM (field? fields) else none
    | none => none
  | n => if isNothing n then some (names.map fun _ => none) else none

/-- An integer of 32 bits, without a minus sign. -/
def natural? (n : Node) : Option Nat :=
  match t.target n with
  | .scalar p style text =>
    if style == .plain || (style == .literal && p.tag == some integerTag) then
      Scalar.natural? (Nat.pow 2 32) text.toList
    else none
  | _ => none

/-- The format of the nodes of a tree. -/
def format : Format Node where
  text? := t.text?
  textOrNull? := t.orNull? t.text?
  choice? := t.choice?
  items? := t.items?
  record? := t.record?

end Tree

end TierIsolation.Yaml
