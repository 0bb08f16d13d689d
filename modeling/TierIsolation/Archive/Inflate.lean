/-!
# Deflated contents

`Inflate.inflate` unpacks contents in the deflate format: a sequence of blocks, each stored as it
is or written in two prefix codes, one for bytes and lengths of repetitions and one for their
distances. A code is given by the lengths of its words (`Code.ofLengths`).

Contents are read bit by bit, the lowest bit of a byte first. Bits after the last block are passed
over. A repetition that reaches back beyond the start repeats zeros. Contents that end too early are
told apart from contents that no end could mend (`Inflate.Fault`).
-/

namespace TierIsolation.Archive.Inflate

inductive Fault
  /-- The contents end before their last block does. -/
  | incomplete
  /-- The contents say what has no meaning. -/
  | corrupt
  deriving DecidableEq, Repr

/-- The bits that are still to be read. -/
abbrev Bits := List Bool

/-- The bits of bytes, the lowest bit of a byte first. -/
def bitsOf (bytes : List UInt8) : Bits :=
  bytes.flatMap fun b => (List.range 8).map fun i => b.toNat.testBit i

/-- Reads a number of `n` bits, the lowest bit first. -/
def number : Nat → Bits → Except Fault (Nat × Bits)
  | 0, bits => .ok (0, bits)
  | _ + 1, [] => .error .incomplete
  | n + 1, bit :: rest => do
    let (high, rest) ← number n rest
    return (bit.toNat + 2 * high, rest)

/-! ## Prefix codes -/

/-- A prefix code: for every length from one on, the symbols with words of that length. The words
of one length follow each other, and follow those that start with shorter words. -/
abbrev Code := List (List Nat)

namespace Code

def maxLength : Nat := 15

/-- The code in which each symbol has a word of the given length, or none if that is zero. -/
def ofLengths (lengths : List Nat) : Code :=
  (List.range maxLength).map fun n =>
    (lengths.zipIdx.filter fun (length, _) => length == n + 1).map fun (_, symbol) => symbol

def size (code : Code) : Nat := (code.map List.length).foldr (· + ·) 0

/-- The share of all bit sequences that start with a word, in units of the longest words. -/
def coverage (code : Code) : Nat :=
  (code.zipIdx.map fun (symbols, n) => symbols.length * Nat.pow 2 (maxLength - (n + 1))).foldr
    (· + ·) 0

/-- Does every bit sequence start with exactly one word? -/
def isComplete (code : Code) : Bool := code.coverage == Nat.pow 2 maxLength

/-- Has the code no words, or a single one, of one bit? -/
def isSparse (code : Code) : Bool :=
  code.size == 0 || (code.size == 1 && code.coverage == Nat.pow 2 (maxLength - 1))

/-- Reads a word and gives its symbol. So far the bits `word` were read, and `first` would be the
first word of their length that is free. Bits that are no word are corrupt when there are no longer
words. -/
def readFrom : Code → Nat → Nat → Bits → Except Fault (Nat × Bits)
  | _, _, _, [] => .error .incomplete
  | [], _, _, _ => .error .corrupt
  | symbols :: longer, word, first, bit :: bits =>
    let word := 2 * word + bit.toNat
    let first := 2 * first
    match symbols[word - first]? with
    | some symbol => .ok (symbol, bits)
    | none =>
      if longer.all List.isEmpty then .error .corrupt
      else readFrom longer word (first + symbols.length) bits

def read (code : Code) (bits : Bits) : Except Fault (Nat × Bits) := readFrom code 0 0 bits

end Code

/-- The codes of a block. -/
structure Codes where
  /-- Bytes, the end of the block and the lengths of repetitions. -/
  literals : Code
  /-- The distances of repetitions. -/
  distances : Code

/-- The codes of a block that does not bring its own. -/
def fixedCodes : Codes where
  literals := .ofLengths
    (List.replicate 144 8 ++ List.replicate 112 9 ++ List.replicate 24 7 ++ List.replicate 8 8)
  distances := .ofLengths (List.replicate 32 5)

/-! ## Codes of a block -/

/-- The order in which the lengths of the code for lengths are written. -/
def lengthOrder : List Nat := [16, 17, 18, 0, 8, 7, 9, 6, 10, 5, 11, 4, 12, 3, 13, 2, 14, 1, 15]

def numbers (n : Nat) : Nat → Bits → Except Fault (List Nat × Bits)
  | 0, bits => .ok ([], bits)
  | count + 1, bits => do
    let (first, bits) ← number n bits
    let (rest, bits) ← numbers n count bits
    return (first :: rest, bits)

/-- Reads lengths until there are `total`; a repetition must not go beyond. The lengths read so
far are in `done`, the last one first. Each step reads one symbol, so that `steps` at least as
large as the number of missing lengths is enough. -/
def lengths (code : Code) (total : Nat) : Nat → List Nat → Bits → Except Fault (List Nat × Bits)
  | 0, done, bits => if done.length = total then .ok (done.reverse, bits) else .error .corrupt
  | steps + 1, done, bits =>
    if done.length = total then .ok (done.reverse, bits)
    else if total < done.length then .error .corrupt
    else do
      let (symbol, bits) ← code.read bits
      if symbol < 16 then lengths code total steps (symbol :: done) bits
      else if symbol = 16 then
        let some last := done.head? | .error .corrupt
        let (extra, bits) ← number 2 bits
        lengths code total steps (List.replicate (extra + 3) last ++ done) bits
      else if symbol = 17 then
        let (extra, bits) ← number 3 bits
        lengths code total steps (List.replicate (extra + 3) 0 ++ done) bits
      else
        let (extra, bits) ← number 7 bits
        lengths code total steps (List.replicate (extra + 11) 0 ++ done) bits

/-- May the code be used for a block? -/
def isUsable (code : Code) : Bool := code.isComplete || code.isSparse

/-- Goes on only if the contents have a meaning. -/
def check (meaningful : Bool) : Except Fault Unit :=
  if meaningful then .ok () else .error .corrupt

def readCodes (bits : Bits) : Except Fault (Codes × Bits) := do
  let (literalCount, bits) ← number 5 bits
  let (distanceCount, bits) ← number 5 bits
  let (lengthCount, bits) ← number 4 bits
  let literalCount := literalCount + 257
  let distanceCount := distanceCount + 1
  check (literalCount ≤ 286 && distanceCount ≤ 30)
  let (written, bits) ← numbers 3 (lengthCount + 4) bits
  let lengthCode := Code.ofLengths ((List.range 19).map fun symbol =>
    ((lengthOrder.zip written).lookup symbol).getD 0)
  check lengthCode.isComplete
  let total := literalCount + distanceCount
  let (all, bits) ← lengths lengthCode total total [] bits
  let literals := Code.ofLengths (all.take literalCount)
  let distances := Code.ofLengths (all.drop literalCount)
  check (isUsable literals && isUsable distances)
  return (⟨literals, distances⟩, bits)

/-! ## Repetitions -/

/-- The least lengths of the length symbols, and how many bits are added to each. -/
def lengthTable : List (Nat × Nat) :=
  [(3, 0), (4, 0), (5, 0), (6, 0), (7, 0), (8, 0), (9, 0), (10, 0), (11, 1), (13, 1), (15, 1),
   (17, 1), (19, 2), (23, 2), (27, 2), (31, 2), (35, 3), (43, 3), (51, 3), (59, 3), (67, 4),
   (83, 4), (99, 4), (115, 4), (131, 5), (163, 5), (195, 5), (227, 5), (258, 0)]

/-- The least distances of the distance symbols, and how many bits are added to each. -/
def distanceTable : List (Nat × Nat) :=
  [(1, 0), (2, 0), (3, 0), (4, 0), (5, 1), (7, 1), (9, 2), (13, 2), (17, 3), (25, 3), (33, 4),
   (49, 4), (65, 5), (97, 5), (129, 6), (193, 6), (257, 7), (385, 7), (513, 8), (769, 8),
   (1025, 9), (1537, 9), (2049, 10), (3073, 10), (4097, 11), (6145, 11), (8193, 12), (12289, 12),
   (16385, 13), (24577, 13)]

/-- Reads the amount that a symbol of a table stands for. -/
def amount (table : List (Nat × Nat)) (symbol : Nat) (bits : Bits) :
    Except Fault (Nat × Bits) := do
  let some (least, extra) := table[symbol]? | .error .corrupt
  let (more, bits) ← number extra bits
  return (least + more, bits)

/-- Repeats `length` bytes from `distance` bytes back. -/
def copy (distance : Nat) : Nat → Array UInt8 → Array UInt8
  | 0, out => out
  | length + 1, out =>
    let byte := if distance ≤ out.size then (out[out.size - distance]?).getD 0 else 0
    copy distance length (out.push byte)

/-! ## Blocks -/

/-- Reads symbols up to the end of the block. Every symbol takes one bit at least, so that `limit`
at least as large as the number of bits is enough. -/
def readSymbols (codes : Codes) : Nat → Array UInt8 → Bits → Except Fault (Array UInt8 × Bits)
  | 0, _, _ => .error .incomplete
  | limit + 1, out, bits => do
    let (symbol, bits) ← codes.literals.read bits
    if symbol < 256 then readSymbols codes limit (out.push (UInt8.ofNat symbol)) bits
    else if symbol = 256 then return (out, bits)
    else
      let (length, bits) ← amount lengthTable (symbol - 257) bits
      let (distanceSymbol, bits) ← codes.distances.read bits
      let (distance, bits) ← amount distanceTable distanceSymbol bits
      readSymbols codes limit (copy distance length out) bits

def readBytes : Nat → Array UInt8 → Bits → Except Fault (Array UInt8 × Bits)
  | 0, out, bits => .ok (out, bits)
  | n + 1, out, bits => do
    let (byte, bits) ← number 8 bits
    readBytes n (out.push (UInt8.ofNat byte)) bits

/-- Reads a stored block, which starts at a full byte. -/
def readStored (out : Array UInt8) (bits : Bits) : Except Fault (Array UInt8 × Bits) := do
  let (length, bits) ← number 16 (bits.drop (bits.length % 8))
  let (complement, bits) ← number 16 bits
  check (length + complement = 0xFFFF)
  readBytes length out bits

/-- Reads blocks up to the last one. Every block takes three bits at least, so that `limit` at
least as large as the number of bits is enough. -/
def readBlocks : Nat → Array UInt8 → Bits → Except Fault (Array UInt8)
  | 0, _, _ => .error .incomplete
  | limit + 1, out, bits => do
    let (last, bits) ← number 1 bits
    let (kind, bits) ← number 2 bits
    let (out, bits) ←
      if kind = 0 then readStored out bits
      else if kind = 1 then readSymbols fixedCodes (bits.length + 1) out bits
      else if kind = 2 then do
        let (codes, bits) ← readCodes bits
        readSymbols codes (bits.length + 1) out bits
      else .error .corrupt
    if last = 1 then return out else readBlocks limit out bits

def inflate (bytes : List UInt8) : Except Fault ByteArray :=
  let bits := bitsOf bytes
  (readBlocks (bits.length + 1) #[] bits).map ByteArray.mk

end TierIsolation.Archive.Inflate
