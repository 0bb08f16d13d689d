/-!
# Tokens of YAML
-/

namespace TierIsolation.Yaml

/-- How a scalar is written. -/
inductive ScalarStyle
  | plain
  | singleQuoted
  | doubleQuoted
  /-- Line by line. -/
  | literal
  /-- Line by line, with single line breaks read as spaces. -/
  | folded
  deriving DecidableEq, Repr, Inhabited

/-- The octets of a tag or of the start of one. They need not be UTF-8. -/
abbrev Address := List UInt8

/-- The address that an ASCII text is. -/
def Address.ofAscii (s : List Char) : Address := s.map fun c => UInt8.ofNat c.toNat

/-- An address up to its first zero, where it ends. -/
def Address.beforeZero (a : Address) : Address := a.takeWhile (· != 0)

/-- The pieces that a YAML text is made of. Where keys, blocks and their ends are comes from the
layout; they are tokens of their own. -/
inductive Token
  /-- A directive that names the version of YAML. -/
  | version (major minor : Nat)
  /-- A directive that lets a handle stand for the start of tags. -/
  | handle (name : String) (start : Address)
  | documentStart
  | documentEnd
  | blockSequenceStart
  | blockMappingStart
  | blockEnd
  | flowSequenceStart
  | flowSequenceEnd
  | flowMappingStart
  | flowMappingEnd
  | blockEntry
  | flowEntry
  | key
  | value
  | reference (name : String)
  | anchor (name : String)
  /-- A tag; with an empty handle it is written in full. -/
  | tag (handle : String) (suffix : Address)
  | scalar (style : ScalarStyle) (text : String)
  deriving DecidableEq, Repr, Inhabited

end TierIsolation.Yaml
