import TierIsolation.Entry

/-!
# Symbols

A symbol is a piece of code found for a name. It remembers the entry it was read from and the
resolver, or host, that found it there.
-/

namespace TierIsolation

/-- The code found for a name. -/
structure Symbol where
  name : String
  /-- The entry the code was read from. -/
  origin : Entry
  /-- The name of the resolver or host that found it. -/
  resolver : String
  bytes : ByteArray

namespace Symbol

/-- The path of a symbol inside an entry: the dots of its name turned to slashes, then a suffix. -/
def path (name suffix : String) : String :=
  String.ofList (Text.replace '.' '/' name.toList) ++ suffix

/-- All there is to know of a symbol, its code as a list. -/
def fields (s : Symbol) : String × Entry × String × List UInt8 :=
  (s.name, s.origin, s.resolver, s.bytes.data.toList)

theorem fields_eq_iff {s t : Symbol} : s.fields = t.fields ↔ s = t := by
  constructor
  · obtain ⟨name, origin, resolver, ⟨⟨bytes⟩⟩⟩ := s
    obtain ⟨name', origin', resolver', ⟨⟨bytes'⟩⟩⟩ := t
    simp only [fields, Prod.mk.injEq]
    rintro ⟨rfl, rfl, rfl, rfl⟩
    rfl
  · rintro rfl
    rfl

instance : DecidableEq Symbol := fun _ _ => decidable_of_decidable_of_iff fields_eq_iff

/-- The symbol in words. -/
def text (s : Symbol) : String :=
  s.name ++ " (" ++ s.origin.location ++ " via " ++ s.resolver ++ ")"

end Symbol

end TierIsolation
