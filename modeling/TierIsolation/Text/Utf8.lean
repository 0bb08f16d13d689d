/-!
# Reading UTF-8 that may be damaged

`Utf8.decode` reads bytes as UTF-8 and puts a replacement character where they are not: one for
every maximal run of bytes that starts a character without completing it, and one for every other
byte that no character starts with. Between bytes it remembers how many bytes the character still
owes and within which bounds the next one has to be (`Pending`).
-/

namespace TierIsolation.Text.Utf8

/-- A character that has been started. -/
structure Pending where
  /-- The number of bytes still owed, at least one. -/
  owed : Nat
  /-- The least value of the next byte. -/
  low : Nat
  /-- The greatest value of the next byte. -/
  high : Nat
  /-- The value of the bits read so far. -/
  value : Nat
  deriving DecidableEq, Repr

/-- The character that a byte of at least `0x80` starts. -/
def leading (b : Nat) : Option Pending :=
  if 0xC2 ≤ b ∧ b ≤ 0xDF then some ⟨1, 0x80, 0xBF, b - 0xC0⟩
  else if b = 0xE0 then some ⟨2, 0xA0, 0xBF, 0⟩
  else if b = 0xED then some ⟨2, 0x80, 0x9F, 0xD⟩
  else if 0xE1 ≤ b ∧ b ≤ 0xEF then some ⟨2, 0x80, 0xBF, b - 0xE0⟩
  else if b = 0xF0 then some ⟨3, 0x90, 0xBF, 0⟩
  else if 0xF1 ≤ b ∧ b ≤ 0xF3 then some ⟨3, 0x80, 0xBF, b - 0xF0⟩
  else if b = 0xF4 then some ⟨3, 0x80, 0x8F, 4⟩
  else none

/-- The character that stands for damage. -/
def replacement : Char := '\uFFFD'

/-- What a byte between characters stands for, and what it starts. -/
def start (b : Nat) : List Char × Option Pending :=
  if b < 0x80 then ([Char.ofNat b], none)
  else
    match leading b with
    | some pending => ([], some pending)
    | none => ([replacement], none)

/-- What a byte inside a character stands for, and what is pending then. -/
def proceed (p : Pending) (b : Nat) : List Char × Option Pending :=
  if p.low ≤ b ∧ b ≤ p.high then
    let value := p.value * 64 + (b - 0x80)
    if p.owed = 1 then ([Char.ofNat value], none)
    else ([], some ⟨p.owed - 1, 0x80, 0xBF, value⟩)
  else
    let (text, pending) := start b
    (replacement :: text, pending)

/-- Reads bytes, the first of them inside a character if one is pending. -/
def decodeFrom : Option Pending → List UInt8 → List Char
  | none, [] => []
  | some _, [] => [replacement]
  | pending, b :: rest =>
    let (text, pending) :=
      match pending with
      | none => start b.toNat
      | some p => proceed p b.toNat
    text ++ decodeFrom pending rest

/-- Reads bytes as text. -/
def decode (bytes : List UInt8) : List Char := decodeFrom none bytes

end TierIsolation.Text.Utf8
