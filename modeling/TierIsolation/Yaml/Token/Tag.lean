import TierIsolation.Yaml.Cursor
import TierIsolation.Yaml.Token

/-!
# Tags and directives

A tag is written in full between angle brackets, or as a handle and a suffix. An address, which is
a tag or a part of one, may hold octets in base sixteen.
-/

namespace TierIsolation.Yaml

/-- The characters of the address that a tag is. -/
def isAddressChar (c : Char) : Bool :=
  isNameChar c || c == ';' || c == '/' || c == '?' || c == ':' || c == '@' || c == '&' ||
    c == '=' || c == '+' || c == '$' || c == '.' || c == '%' || c == '!' || c == '~' ||
    c == '*' || c == '\x27' || c == '(' || c == ')'

/-- The characters that only an address may hold that nothing can be mistaken for. -/
def isWideAddressChar (c : Char) : Bool :=
  isAddressChar c || c == ',' || c == '[' || c == ']'

/-- How many octets follow the first one of a character in UTF-8, going by that one alone. -/
def followers? (octet : Nat) : Option Nat :=
  if octet < 0x80 then some 0
  else if octet < 0xC0 then none
  else if octet < 0xE0 then some 1
  else if octet < 0xF0 then some 2
  else if octet < 0xF8 then some 3
  else none

/-- Reads an address. The character started by the octets in base sixteen needs `owed` more; its
octets need not be the ones that UTF-8 would choose. -/
def address? : Nat → List Char → Option Address
  | 0, [] => some []
  | _ + 1, [] => none
  | owed, '%' :: high :: low :: rest => do
    let octet := 16 * (← hexDigit? high) + (← hexDigit? low)
    let owed ←
      match owed with
      | 0 => followers? octet
      | owed + 1 => if 0x80 ≤ octet ∧ octet < 0xC0 then some owed else none
    return UInt8.ofNat octet :: (← address? owed rest)
  | 0, c :: rest => if c == '%' then none else (address? 0 rest).map (Address.ofAscii [c] ++ ·)
  | _ + 1, _ :: _ => none

/-- Reads the handle of a tag. In a directive it ends in an exclamation mark. -/
def handle? (inDirective : Bool) (c : Cursor) : Option (List Char × Cursor) :=
  if c.next != some '!' then none
  else
    let (name, c) := c.advance.run isNameChar
    if c.next == some '!' then some (['!'] ++ name ++ ['!'], c.advance)
    else if inDirective && !name.isEmpty then none
    else some ('!' :: name, c)

/-- Reads the handle and the suffix of a tag. An exclamation mark with nothing behind it is a tag in
full. -/
def tagParts? (c : Cursor) : Option ((List Char × Address) × Cursor) := do
  if c.second == some '<' then
    let (address, c) := (c.skip 2).run isWideAddressChar
    if address.isEmpty || c.next != some '>' then none
    else return (([], (← address? 0 address).beforeZero), c.advance)
  else
    let (handle, c) ← handle? false c
    let (suffix, c) := c.run isAddressChar
    let suffix ← address? 0 suffix
    if handle.length > 1 && handle.getLast? == some '!' then
      if suffix.isEmpty then none else return ((handle, suffix.beforeZero), c)
    else
      let suffix := (Address.ofAscii (handle.drop 1) ++ suffix).beforeZero
      return (if suffix.isEmpty then ([], Address.ofAscii ['!']) else (['!'], suffix), c)

/-- Reads a tag, which ends in front of spacing. -/
def tag? (inFlow : Bool) (c : Cursor) : Option (Token × Cursor) := do
  let ((handle, suffix), c) ← tagParts? c
  if endsWord c.next || (inFlow && c.next == some ',') then
    return (.tag (String.ofList handle) suffix, c)
  else none

/-! ## Directives -/

/-- The most digits that a number in a directive may have. -/
def versionDigits : Nat := 9

/-- Reads a number of at most nine digits. -/
def versionNumber? (c : Cursor) : Option (Nat × Cursor) :=
  let (digits, c) := c.run Char.isDigit
  if digits.isEmpty || digits.length > versionDigits then none
  else some (digits.foldl (fun n d => 10 * n + (d.toNat - '0'.toNat)) 0, c)

/-- Reads the version after the name of its directive. -/
def versionDirective? (c : Cursor) : Option (Token × Cursor) := do
  let (major, c) ← versionNumber? (c.skipWhile isBlank)
  if c.next != some '.' then none
  else
    let (minor, c) ← versionNumber? c.advance
    return (.version major minor, c)

/-- Reads a handle and what it stands for after the name of their directive. -/
def handleDirective? (c : Cursor) : Option (Token × Cursor) := do
  let (name, c) ← handle? true (c.skipWhile isBlank)
  if !c.next.any isBlank then none
  else
    let (start, c) := (c.skipWhile isBlank).run isWideAddressChar
    if start.isEmpty || !endsWord c.next then none
    else return (.handle (String.ofList name) (← address? 0 start).beforeZero, c)

/-- Reads a directive and the rest of its line. -/
def directive? (c : Cursor) : Option (Token × Cursor) := do
  let (name, c) := c.advance.run isNameChar
  if !endsWord c.next then none
  else
    let (token, c) ←
      if name == "YAML".toList then versionDirective? c
      else if name == "TAG".toList then handleDirective? c
      else none
    return (token, ← c.restOfLine?)

end TierIsolation.Yaml
