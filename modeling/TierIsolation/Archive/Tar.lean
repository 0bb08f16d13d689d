import TierIsolation.Archive
import TierIsolation.Text.Utf8

/-!
# Tar files

A tar file is a sequence of blocks of 512 bytes. Each member is a header, which names it and gives
its size, followed by its contents up to a full block; a block of zeros ends the file.
`Tar.members` lists the members and says where their contents are. Names too long for a header, and
sizes, can be given by members of their own in front of the one they describe (`Description`).
-/

namespace TierIsolation.Archive.Tar

abbrev Bytes := List UInt8

def blockSize : Nat := 512

/-- Sizes and positions are below this bound. -/
def sizeLimit : Nat := Nat.pow 2 64

def slice (bytes : Bytes) (start n : Nat) : Bytes := (bytes.drop start).take n

def beforeZero (bytes : Bytes) : Bytes := bytes.takeWhile (· != 0)

def ascii (s : String) : Bytes := s.toList.map fun c => UInt8.ofNat c.toNat

/-! ## Numbers -/

/-- The digits of a number in octal notation. -/
def octalDigits (digits : List Char) : Option Nat :=
  if digits.isEmpty then none
  else
    digits.foldlM (fun value c =>
      if '0' ≤ c ∧ c ≤ '7' then
        let value := 8 * value + (c.toNat - '0'.toNat)
        if value < sizeLimit then some value else none
      else none) 0

/-- The number that a text in octal notation stands for. -/
def octal? (text : List Char) : Option Nat :=
  match Text.trim text with
  | '+' :: digits => octalDigits digits
  | digits => octalDigits digits

/-- Bytes as text, in messages. -/
def shown (bytes : Bytes) : String := String.ofList (Text.Utf8.decode bytes)

/-- The number in octal notation in a field of a header. -/
def octalField (field : String) (bytes : Bytes) : Except ArchiveFault Nat :=
  let bytes := beforeZero bytes
  match String.fromUTF8? ⟨bytes.toArray⟩ with
  | none => .error (.numberNotText (shown bytes) field)
  | some text =>
    match octal? text.toList with
    | some value => .ok value
    | none => .error (.notNumber text field)

/-- The number of the last eight bytes of a field in base 256, the first bit of the field left
out. -/
def binaryNumber (bytes : Bytes) : Nat :=
  let digits :=
    if bytes.length = 8 then bytes.set 0 ((bytes.headD 0) ^^^ 0x80)
    else bytes.drop (bytes.length - 8)
  digits.foldl (fun value b => value * 256 + b.toNat) 0

/-- The number in a field of a header: in base 256 if the first bit is set, else octal. -/
def numberField (field : String) (bytes : Bytes) : Except ArchiveFault Nat :=
  if (bytes.headD 0) &&& 0x80 = 0 then octalField field bytes else .ok (binaryNumber bytes)

/-! ## Headers -/

/-- The layouts of a header that have more fields than the oldest one. -/
inductive Layout
  | old
  | ustar
  | gnu
  deriving DecidableEq

/-- The layout that a header says it has. -/
def layout (header : Bytes) : Layout :=
  let magic := slice header 257 8
  if magic = ascii "ustar" ++ [0] ++ ascii "00" then .ustar
  else if magic = ascii "ustar " ++ ascii " " ++ [0] then .gnu
  else .old

/-- The byte for the kind of a member. -/
def kindOf (header : Bytes) : Char := Char.ofNat ((slice header 156 1).headD 0).toNat

/-- The name in a header, in two parts if the layout has room for them. -/
def headerName (header : Bytes) : Bytes :=
  let name := beforeZero (slice header 0 100)
  if layout header = .ustar then
    let folder := beforeZero (slice header 345 155)
    if folder.isEmpty then name else folder ++ ascii "/" ++ name
  else name

/-- The sum of the bytes of a header, those of the recorded sum taken as blanks. -/
def headerSum (header : Bytes) : Nat :=
  ((header.take 148 ++ header.drop 156).map UInt8.toNat).foldr (· + ·) (8 * 32)

/-- Checks the sum of a header against the recorded one. -/
def checkSum (header : Bytes) : Except ArchiveFault Unit := do
  let recorded ← octalField ("cksum for " ++ shown (headerName header)) (slice header 148 8)
  if headerSum header = recorded % Nat.pow 2 32 then return else throw .headerChecksum

/-! ## Extended attributes -/

/-- The number that a text in decimal notation stands for. -/
def decimal? (bytes : Bytes) : Option Nat :=
  let digits := bytes.map fun b => Char.ofNat b.toNat
  let digits := match digits with
    | '+' :: rest => rest
    | other => other
  if digits.isEmpty then none
  else
    digits.foldlM (fun value c =>
      if c.isDigit then
        let value := 10 * value + (c.toNat - '0'.toNat)
        if value < sizeLimit then some value else none
      else none) 0

/-- The two parts of some bytes around the first byte `b`. -/
def splitAtByte (b : UInt8) (bytes : Bytes) : Option (Bytes × Bytes) :=
  (bytes.findIdx? (· == b)).map fun i => (bytes.take i, bytes.drop (i + 1))

/-- Reads the line of an attribute: its length with the line feed, a blank, the key, an equals sign
and the value. -/
def attribute? (line : Bytes) : Option (Bytes × Bytes) := do
  let (length, pair) ← splitAtByte 0x20 line
  let length ← decimal? length
  guard (line.length + 1 = length)
  splitAtByte 0x3D pair

/-- The lines of a list of attributes, up to the first empty one. -/
def attributeLines (bytes : Bytes) : List Bytes := (bytes.splitOn 0x0A).takeWhile (!·.isEmpty)

/-- The size given by a list of attributes. A line that is not an attribute hides what follows. -/
def attributeSize? (bytes : Bytes) : Option Nat := do
  let attributes := (attributeLines bytes).map attribute?
  let some (_, value) ← attributes.find? (fun a => a.all fun (key, _) => key == ascii "size")
    | none
  decimal? value

/-- The name given by a list of attributes. -/
def attributePath? (bytes : Bytes) : Option Bytes :=
  ((attributeLines bytes).filterMap attribute?).lookup (ascii "path")

/-! ## Members -/

/-- What is known about a member before its header. -/
structure Description where
  longName : Option Bytes := none
  longLink : Option Bytes := none
  attributes : Option Bytes := none

def Description.isEmpty (d : Description) : Bool :=
  d.longName.isNone && d.longLink.isNone && d.attributes.isNone

/-- A place in a file: how far it is from the start, how many bytes are to be passed over, and the
bytes that follow, those to be passed over included. -/
structure Place where
  offset : Nat
  pending : Nat
  rest : Bytes

/-- The header at a place, its size field, and the place behind it. -/
structure Header where
  bytes : Bytes
  size : Nat
  next : Place

/-- The size of some contents in full blocks. -/
def padded (size : Nat) : Nat := (size + (blockSize - 1)) / blockSize * blockSize

/-- The kinds of headers that describe a member to come: a long name, a long link, attributes, and
attributes for all members to come. -/
def isDescription (header : Bytes) : Bool := ['L', 'K', 'x', 'g'].contains (kindOf header)

/-- Reads the next header. A size among the attributes is the size of the member that they describe,
and not of other descriptions before it. There is no header at the end of the file and at a block of
zeros. -/
def readHeader (d : Description) (p : Place) : Except ArchiveFault (Option Header) := do
  if p.rest.length < p.pending then throw .endOfContents
  let rest := p.rest.drop p.pending
  let bytes := rest.take blockSize
  if bytes.isEmpty then return none
  if bytes.length < blockSize then throw .partialBlock
  if bytes.all (· == 0) then return none
  checkSum bytes
  let own ← numberField ("size for " ++ shown (headerName bytes)) (slice bytes 124 12)
  let size := if isDescription bytes then own else (d.attributes.bind attributeSize?).getD own
  let offset := p.offset + p.pending + blockSize
  if sizeLimit ≤ size + (blockSize - 1) then throw .sizeOverflow
  if sizeLimit ≤ offset + padded size then throw .sizeOverflow
  return some ⟨bytes, size, ⟨offset, padded size, rest.drop blockSize⟩⟩

def Header.contents (h : Header) : Bytes := h.next.rest.take h.size

def memberName (d : Description) (h : Header) : Bytes :=
  match d.longName, d.attributes.bind attributePath? with
  | some name, _ => if name.getLast? = some 0 then name.dropLast else name
  | none, some name => name
  | none, none => headerName h.bytes

/-! ## Sparse members -/

/-- The part of a sparse member that has been listed so far. -/
structure Extent where
  /-- The end of the last part. -/
  reached : Nat := 0
  /-- The number of recorded bytes not yet used. -/
  left : Nat

/-- Takes one more part of a sparse member of the given size. -/
def addPart (size : Nat) (e : Extent) (part : Bytes) : Except ArchiveFault Extent := do
  if part.headD 0 = 0 ∨ (part.drop 12).headD 0 = 0 then return e
  let start ← numberField "offset from sparse header" (part.take 12)
  let length ← numberField "length from sparse header" ((part.drop 12).take 12)
  if length ≠ 0 ∧ (size - e.left) % blockSize ≠ 0 then
    throw (.sparse "previous block in sparse file was not aligned to 512-byte boundary")
  if start < e.reached then throw (.sparse "out of order or overlapping sparse blocks")
  if sizeLimit ≤ start + length then
    throw (.sparse "more bytes listed in sparse file than u64 can hold")
  if e.left < length then
    throw (.sparse "sparse file consumed more data than the header listed")
  return ⟨start + length, e.left - length⟩

/-- The parts listed in a block, `n` of them from a position on. -/
def parts (block : Bytes) (start n : Nat) : List Bytes :=
  (List.range n).map fun i => slice block (start + 24 * i) 24

/-- Takes the parts in the blocks that follow a header, as long as each says that there is one
more. Every block shortens the rest, so that `limit` at least as large as its length is enough. -/
def addFurtherParts (size : Nat) :
    Nat → Extent → Place → Except ArchiveFault (Extent × Place)
  | 0, e, p => .ok (e, p)
  | limit + 1, e, p => do
    let block := p.rest.take blockSize
    if block.isEmpty then throw (.sparse "failed to read extension")
    if block.length < blockSize then throw .partialBlock
    let p := { p with offset := p.offset + blockSize, rest := p.rest.drop blockSize }
    let e ← (parts block 0 21).foldlM (addPart size) e
    if (slice block 504 1).headD 0 = 1 then addFurtherParts size limit e p
    else return (e, p)

/-- Checks the parts of a sparse member and gives the place behind their list. -/
def checkSparse (h : Header) : Except ArchiveFault Place := do
  if layout h.bytes ≠ .gnu then throw (.sparse "sparse entry type listed but not GNU header")
  let e ← (parts h.bytes 386 4).foldlM (addPart h.size) { left := h.size }
  let (e, p) ←
    if (slice h.bytes 482 1).headD 0 = 1 then
      addFurtherParts h.size h.next.rest.length e h.next
    else .ok (e, h.next)
  let owner := shown (slice h.bytes 297 32) ++ ":" ++ shown (slice h.bytes 265 32)
  let whole ← numberField ("real_size for " ++ owner) (slice h.bytes 483 12)
  if e.reached ≠ whole then
    throw (.sparse "mismatch in sparse file chunks and size in header")
  if e.left ≠ 0 then
    throw (.sparse "mismatch in sparse file chunks and entry size in header")
  return p

/-! ## The list of members -/

/-- The member of a header that describes no other one. -/
def member (d : Description) (h : Header) : TarMember where
  name := Text.Utf8.decode (memberName d h)
  isFile := kindOf h.bytes = '\x00' ∨ kindOf h.bytes = '0'
  extent := ⟨h.next.offset, h.size⟩

/-- The position behind the block that no header was found in. -/
def Place.final (p : Place) : Nat := p.offset + min p.rest.length (p.pending + blockSize)

/-- Lists the members from a place on, and gives the position where the list ends. Every header
takes a block, so that `limit` at least as large as the number of blocks is enough. -/
def membersFrom : Nat → Description → Place → Except ArchiveFault (List TarMember × Nat)
  | 0, _, p => .ok ([], p.offset)
  | limit + 1, d, p => do
    match ← readHeader d p with
    | none => if d.isEmpty then return ([], p.final) else throw .noDescribedMember
    | some h =>
      let describes := layout h.bytes ≠ .old
      match kindOf h.bytes with
      | 'L' =>
        if describes then
          if d.longName.isSome then throw .twoLongNames
          return ← membersFrom limit { d with longName := some h.contents } h.next
      | 'K' =>
        if describes then
          if d.longLink.isSome then throw .twoLongNames
          return ← membersFrom limit { d with longLink := some h.contents } h.next
      | 'x' =>
        if describes then
          if d.attributes.isSome then throw .twoExtensions
          return ← membersFrom limit { d with attributes := some h.contents } h.next
      | _ => pure ()
      let next ← if kindOf h.bytes = 'S' then checkSparse h else .ok h.next
      let (rest, position) ← membersFrom limit {} next
      return (member d h :: rest, position)

def members (file : ByteArray) : Except ArchiveFault (List TarMember × Nat) :=
  membersFrom (file.size / blockSize + 1) {} ⟨0, 0, file.toList⟩

end TierIsolation.Archive.Tar
