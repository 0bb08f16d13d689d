import TierIsolation.Text.Shown

/-!
# Values written out for inspection

The one-line text in which a structured value is shown to a person: a record as its name and its
fields between braces, a tagged value as its tag and its arguments between parentheses, lists
between brackets, texts quoted with `quoted`.
-/

namespace TierIsolation.Inspection

/-- The digits of `n` in base sixteen, in lower case. -/
def hexDigits (n : Nat) : List Char := Nat.toDigits 16 n

/-- A character inside a quoted text: the usual escapes, a number for what is not shown. -/
def escaped (c : Char) : List Char :=
  if c = '\x00' then ['\\', '0']
  else if c = '\t' then ['\\', 't']
  else if c = '\r' then ['\\', 'r']
  else if c = '\n' then ['\\', 'n']
  else if c = '\\' then ['\\', '\\']
  else if c = '\x22' then ['\\', '\x22']
  else if Text.isShown c then [c]
  else ['\\', 'u', '\x7b'] ++ hexDigits c.toNat ++ ['\x7d']

/-- A text between double quotes. -/
def quoted (s : String) : String :=
  String.ofList (['\x22'] ++ s.toList.flatMap escaped ++ ['\x22'])

def list (items : List String) : String := "[" ++ ", ".intercalate items ++ "]"

/-- A table of shown keys and values. -/
def table (rows : List (String × String)) : String :=
  "\x7b" ++ ", ".intercalate (rows.map fun (key, value) => key ++ ": " ++ value) ++ "\x7d"

/-- A record with its shown fields. -/
def record (name : String) (fields : List (String × String)) : String :=
  name ++ " \x7b " ++ ", ".intercalate (fields.map fun (key, value) => key ++ ": " ++ value) ++
    " \x7d"

/-- A tag with its shown arguments. -/
def tagged (tag : String) (arguments : List String) : String :=
  tag ++ "(" ++ ", ".intercalate arguments ++ ")"

/-- A value that may be missing. -/
def optional : Option String → String
  | none => "None"
  | some value => tagged "Some" [value]

def truth (b : Bool) : String := if b then "true" else "false"

end TierIsolation.Inspection
