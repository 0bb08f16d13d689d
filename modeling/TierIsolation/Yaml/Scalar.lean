import TierIsolation.Yaml.Character

/-!
# What plain scalars stand for

A plain scalar can stand for null, a truth value, an integer or a number with a fraction or an
exponent; every other one is a text. `looksTyped` are the texts that are quoted so that they are not
taken for anything else.
-/

namespace TierIsolation.Yaml.Scalar

/-- The ways to write null. -/
def isNull (s : String) : Bool := s == "null" || s == "Null" || s == "NULL" || s == "~"

/-- The ways to write a truth value. -/
def isTruth (s : String) : Bool :=
  s == "true" || s == "True" || s == "TRUE" || s == "false" || s == "False" || s == "FALSE"

/-! ## Integers -/

/-- The number with these digits in a base up to sixteen. -/
def digits? (base : Nat) (s : List Char) : Option Nat :=
  if s.isEmpty then none
  else s.foldlM (fun n c => do
    let d ← hexDigit? c
    if d < base then some (base * n + d) else none) 0

/-- The bases other than ten, with what is written in front of their digits. -/
def bases : List (List Char × Nat) := [(['0', 'x'], 16), (['0', 'o'], 8), (['0', 'b'], 2)]

/-- A text without one plus sign in front. -/
def withoutPlus (s : List Char) : List Char :=
  match s with
  | '+' :: rest => rest
  | s => s

/-- A text without one sign in front. -/
def withoutSign (s : List Char) : List Char :=
  match s with
  | '-' :: rest => rest
  | s => withoutPlus s

/-- Several decimal digits of which the first is zero, with or without a sign: not a number. -/
def isPadded (s : List Char) : Bool :=
  match withoutSign s with
  | '0' :: rest => !rest.isEmpty && rest.all Char.isDigit
  | _ => false

/-- The value of a text in a base other than ten. -/
def based? (s : List Char) : Option Nat :=
  bases.findSome? fun (start, base) => (start.isPrefixOf? s).bind (digits? base)

/-- The number that a text stands for, without a minus sign and below a limit. -/
def natural? (limit : Nat) (s : List Char) : Option Nat :=
  let body := withoutPlus s
  match (based? body).filter (· < limit) with
  | some n => some n
  | none => if isPadded s then none else (digits? 10 body).filter (· < limit)

/-- Does a text with a minus sign stand for an integer down to a limit? -/
def isNegative (limit : Nat) (s : List Char) : Bool :=
  match s with
  | '-' :: body =>
    ((based? body).filter (· ≤ limit)).isSome ||
      (!isPadded s && ((digits? 10 body).filter (· ≤ limit)).isSome)
  | _ => false

/-- Does a text stand for an integer of 128 bits? -/
def isInteger (s : List Char) : Bool :=
  (natural? (Nat.pow 2 128) s).isSome || isNegative (Nat.pow 2 127) s

/-! ## Fractions and exponents -/

/-- The exponents of ten that can decide whether a number is too large: below the first it never is,
above the second it always is. -/
def doubtfulMagnitudes : Nat × Nat := (300, 310)

/-- The least number that is too large for a number of 64 bits in binary notation. -/
def tooLarge : Nat := Nat.pow 2 1024 - Nat.pow 2 970

/-- Does `digits`, read as a number, times ten to the exponent fit in 64 bits in binary notation? -/
def fits (digits : List Char) (exponent : Int) : Bool :=
  let significant := digits.dropWhile (· == '0')
  let n := (digits? 10 significant).getD 0
  let magnitude := Int.ofNat significant.length + exponent
  if n == 0 || magnitude < doubtfulMagnitudes.1 then true
  else if magnitude > doubtfulMagnitudes.2 then false
  else n * Nat.pow 10 exponent.toNat < tooLarge * Nat.pow 10 (-exponent).toNat

/-- The exponent at the end of a number, zero if it is left out. -/
def exponent? (s : List Char) : Option Int :=
  match s with
  | [] => some 0
  | c :: rest =>
    if c == 'e' || c == 'E' then
      match rest with
      | '-' :: ds => (digits? 10 ds).map fun n => -Int.ofNat n
      | ds => (digits? 10 (withoutPlus ds)).map Int.ofNat
    else none

/-- Does a text without a sign stand for a number in decimal notation that is not too large? -/
def isDecimal (s : List Char) : Bool :=
  let whole := s.takeWhile Char.isDigit
  let rest := s.drop whole.length
  let fraction :=
    match rest with
    | '.' :: rest => rest.takeWhile Char.isDigit
    | _ => []
  let rest := if rest.head? == some '.' then rest.drop (fraction.length + 1) else rest
  match exponent? rest with
  | none => false
  | some exponent =>
    !(whole ++ fraction).isEmpty && fits (whole ++ fraction) (exponent - fraction.length)

/-- The ways to write infinity. -/
def isInfinity (s : String) : Bool := s == ".inf" || s == ".Inf" || s == ".INF"

/-- Does a text stand for a number in binary notation, an infinite one or none at all? -/
def isFloat (s : List Char) : Bool :=
  let text := String.ofList s
  let signs := (s.takeWhile fun c => c == '+' || c == '-').length
  text == ".nan" || text == ".NaN" || text == ".NAN" ||
    (signs ≤ 1 && (isInfinity (String.ofList (s.drop signs)) || isDecimal (s.drop signs)))

/-! ## Texts to be quoted -/

/-- The texts that would not read as texts, or that others might not take for texts. -/
def looksTyped (s : String) : Bool :=
  s.isEmpty || isNull s || isTruth s || isInteger s.toList || isPadded s.toList ||
    isFloat s.toList

end TierIsolation.Yaml.Scalar
