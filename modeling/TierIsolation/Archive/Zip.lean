import TierIsolation.Archive
import TierIsolation.Archive.Checksum
import TierIsolation.Archive.CodePage
import TierIsolation.Archive.Inflate
import TierIsolation.Text.Utf8

/-!
# Zip files

A zip file ends in a directory of its members, which a record at the very end of the file leads to
(`Ending`). Each entry of the directory leads to a header in front of the contents of the member.
Anything may stand before the archive, so positions count from the start that the ending implies.

`Zip.members` lists the members in the order of the directory. The contents of a member are stored
or deflated, and have to have the checksum that the directory records.
-/

namespace TierIsolation.Archive.Zip

/-- The number of `n` bytes at a position, the lowest byte first. -/
def number (file : ByteArray) (n position : Nat) : Except ArchiveFault Nat :=
  if position + n ≤ file.size then
    .ok ((file.extract position (position + n)).toList.foldr (fun b high => b.toNat + 256 * high) 0)
  else .error .endOfFile

def bytes (file : ByteArray) (n position : Nat) : Except ArchiveFault (List UInt8) :=
  if position + n ≤ file.size then .ok (file.extract position (position + n)).toList
  else .error .endOfFile

/-- Positions and sizes are below this bound. -/
def sizeLimit : Nat := Nat.pow 2 64

/-- The value of a field of four bytes that is too small for its number. -/
def overflow32 : Nat := 0xFFFFFFFF

/-- The value of a field of two bytes that is too small for its number. -/
def overflow16 : Nat := 0xFFFF

/-! ## The ending -/

/-- The record at the end of the file. -/
structure Ending where
  position : Nat
  disk : Nat
  directoryDisk : Nat
  /-- The number of members, on this disk. -/
  count : Nat
  total : Nat
  directorySize : Nat
  directoryStart : Nat
  commentLength : Nat

/-- The size of the record without its comment. -/
def endingSize : Nat := 22

/-- Reads the record at a position, which ends in a comment. -/
def Ending.read (file : ByteArray) (position : Nat) : Except ArchiveFault Ending := do
  let disk ← number file 2 (position + 4)
  let directoryDisk ← number file 2 (position + 6)
  let count ← number file 2 (position + 8)
  let total ← number file 2 (position + 10)
  let directorySize ← number file 4 (position + 12)
  let directoryStart ← number file 4 (position + 16)
  let commentLength ← number file 2 (position + 20)
  let _ ← bytes file commentLength (position + endingSize)
  return { position, disk, directoryDisk, count, total, directorySize, directoryStart,
           commentLength }

/-- Is the four-byte mark `mark` at a position? -/
def hasMark (file : ByteArray) (mark position : Nat) : Bool :=
  match number file 4 position with
  | .ok found => found == mark
  | .error _ => false

def endingMark : Nat := 0x06054B50

/-- Finds the record, the last one if there are several. -/
def Ending.find (file : ByteArray) : Except ArchiveFault Ending :=
  if file.size < endingSize then .error (.invalidZip "Invalid zip header")
  else
    let last := file.size - endingSize
    match (List.range (min last overflow16 + 1)).find? fun k => hasMark file endingMark (last - k)
    with
    | some k => Ending.read file (last - k)
    | none => .error (.invalidZip "Could not find central directory end")

def Ending.isTooSmall (e : Ending) : Bool :=
  e.disk == overflow16 || e.directoryDisk == overflow16 || e.count == overflow16 ||
    e.total == overflow16 || e.directorySize == overflow32 || e.directoryStart == overflow32

/-! ## The directory -/

/-- Where the archive and its directory start, and how many members there are. -/
structure Directory where
  archiveStart : Nat
  start : Nat
  count : Nat

/-- The mark of the pointer to the large record. -/
def locatorMark : Nat := 0x07064B50

def largeMark : Nat := 0x06064B50

/-- The fault of an archive in several files. -/
def severalDisks : ArchiveFault :=
  .unsupportedZip "Support for multi-disk files is not implemented"

/-- The directory that the record at the end leads to. -/
def Directory.ofEnding (e : Ending) : Except ArchiveFault Directory :=
  if e.directorySize + e.directoryStart ≤ e.position then
    let archiveStart := e.position - e.directorySize - e.directoryStart
    .ok ⟨archiveStart, e.directoryStart + archiveStart, e.count⟩
  else .error (.invalidZip "Invalid central directory size or offset")

/-- The directory that the large record leads to. The record is looked for from the position that
its pointer names on, up to where it must have started. -/
def Directory.ofLargeRecord (file : ByteArray) (e : Ending) (locator : Nat) :
    Except ArchiveFault Directory := do
  let directoryDisk ← number file 4 (locator + 4)
  let named ← number file 8 (locator + 8)
  if !e.isTooSmall && e.disk != directoryDisk then throw severalDisks
  if e.position < 60 then
    throw (.invalidZip "File cannot contain ZIP64 central directory end")
  let last := e.position - 60
  let some k := (List.range (last + 1 - named)).find? fun k => hasMark file largeMark (named + k)
    | throw (.invalidZip "Could not find ZIP64 central directory end")
  let position := named + k
  let disk ← number file 4 (position + 16)
  let directoryDisk ← number file 4 (position + 20)
  let count ← number file 8 (position + 32)
  let start ← number file 8 (position + 48)
  if disk != directoryDisk then throw severalDisks
  if sizeLimit ≤ start + k then
    throw (.invalidZip "Invalid central directory size or offset")
  return ⟨k, start + k, count⟩

def Directory.find (file : ByteArray) : Except ArchiveFault Directory := do
  let e ← Ending.find file
  if !e.isTooSmall && e.disk != e.directoryDisk then throw severalDisks
  let fromEnd := 20 + endingSize + e.commentLength
  if fromEnd ≤ file.size && hasMark file locatorMark (file.size - fromEnd) then
    Directory.ofLargeRecord file e (file.size - fromEnd)
  else Directory.ofEnding e

/-! ## Entries of the directory -/

structure DirectoryEntry where
  flags : Nat
  method : Nat
  checksum : Nat
  compressedSize : Nat
  size : Nat
  /-- Where the header of the member is, seen from the start of the archive. -/
  start : Nat
  name : List UInt8
  /-- Does the entry describe an encryption? -/
  describesEncryption : Bool := false

/-- The method of encrypted contents. -/
def encryptedMethod : Nat := 99

/-- The number of `n` bytes that an extra field starts with, and what follows it. -/
def split? (n : Nat) (extra : List UInt8) : Option (Nat × List UInt8) :=
  if n ≤ extra.length then
    some ((extra.take n).foldr (fun b high => b.toNat + 256 * high) 0, extra.drop n)
  else none

/-- Takes the large sizes from an extra field of that kind, for the fields that are too small. A
field that ends too early ends the list of fields. -/
def largeSizes (e : DirectoryEntry) (length : Nat) (extra : List UInt8) :
    DirectoryEntry × Option (List UInt8) :=
  let whole := extra
  let skip (rest : List UInt8) := rest.drop (length - (whole.length - rest.length))
  let (e, extra) :=
    if e.size = overflow32 then
      match split? 8 extra with
      | some (size, rest) => ({ e with size }, some rest)
      | none => (e, none)
    else (e, some extra)
  let (e, extra) :=
    match extra with
    | none => (e, none)
    | some extra =>
      if e.compressedSize = overflow32 then
        match split? 8 extra with
        | some (compressedSize, rest) => ({ e with compressedSize }, some rest)
        | none => (e, none)
      else (e, some extra)
  match extra with
  | none => (e, none)
  | some extra =>
    if e.start = overflow32 then
      match split? 8 extra with
      | some (start, rest) => ({ e with start }, some (skip rest))
      | none => (e, none)
    else (e, some (skip extra))

/-- Takes the description of an encryption from an extra field of that kind. -/
def encryption (e : DirectoryEntry) (length : Nat) (extra : List UInt8) :
    Except ArchiveFault (DirectoryEntry × Option (List UInt8)) :=
  if length ≠ 7 then
    .error (.unsupportedZip "AES extra data field has an unsupported length")
  else
    match split? 2 extra with
    | none => .ok (e, none)
    | some (version, rest) =>
      match split? 2 rest with
      | none => .ok (e, none)
      | some (vendor, rest) =>
        match split? 1 rest with
        | none => .ok (e, none)
        | some (strength, rest) =>
          match split? 2 rest with
          | none => .ok (e, none)
          | some (method, rest) =>
            if vendor ≠ 0x4541 then .error (.invalidZip "Invalid AES vendor")
            else if version ≠ 1 ∧ version ≠ 2 then
              .error (.invalidZip "Invalid AES vendor version")
            else if strength ≠ 1 ∧ strength ≠ 2 ∧ strength ≠ 3 then
              .error (.invalidZip "Invalid AES encryption strength")
            else .ok ({ e with method, describesEncryption := true }, some (rest.drop length))

/-- Takes what is relevant from the extra fields of an entry. Every field shortens the rest, so that
`limit` at least as large as its length is enough. -/
def takeExtra : Nat → DirectoryEntry → List UInt8 → Except ArchiveFault DirectoryEntry
  | 0, e, _ => .ok e
  | limit + 1, e, extra =>
    match split? 2 extra with
    | none => .ok e
    | some (kind, extra) =>
      match split? 2 extra with
      | none => .ok e
      | some (length, extra) => do
        let (e, rest) ←
          if kind = 0x0001 then .ok (largeSizes e length extra)
          else if kind = 0x9901 then encryption e length extra
          else .ok (e, some (extra.drop length))
        match rest with
        | none => return e
        | some rest => takeExtra limit e rest

def entryMark : Nat := 0x02014B50

/-- Reads the entry at a position and gives the position behind it. -/
def DirectoryEntry.read (file : ByteArray) (archiveStart position : Nat) :
    Except ArchiveFault (DirectoryEntry × Nat) := do
  if (← number file 4 position) ≠ entryMark then
    throw (.invalidZip "Invalid Central Directory header")
  let flags ← number file 2 (position + 8)
  let method ← number file 2 (position + 10)
  let checksum ← number file 4 (position + 16)
  let compressedSize ← number file 4 (position + 20)
  let size ← number file 4 (position + 24)
  let nameLength ← number file 2 (position + 28)
  let extraLength ← number file 2 (position + 30)
  let commentLength ← number file 2 (position + 32)
  let start ← number file 4 (position + 42)
  let name ← bytes file nameLength (position + 46)
  let extra ← bytes file extraLength (position + 46 + nameLength)
  let _ ← bytes file commentLength (position + 46 + nameLength + extraLength)
  let e ← takeExtra extra.length
    { flags, method, checksum, compressedSize, size, start, name } extra
  if e.method = encryptedMethod && !e.describesEncryption then
    throw (.invalidZip "AES encryption without AES extra data field")
  if sizeLimit ≤ e.start + archiveStart then
    throw (.invalidZip "Archive header is too large")
  return ({ e with start := e.start + archiveStart },
    position + 46 + nameLength + extraLength + commentLength)

/-- Reads some entries, and gives the position behind them. -/
def entriesFrom (file : ByteArray) (archiveStart : Nat) :
    Nat → Nat → Except ArchiveFault (List DirectoryEntry × Nat)
  | 0, position => .ok ([], position)
  | count + 1, position => do
    let (e, position) ← DirectoryEntry.read file archiveStart position
    let (rest, position) ← entriesFrom file archiveStart count position
    return (e :: rest, position)

/-! ## Members -/

def headerMark : Nat := 0x04034B50

/-- The size of the header of a member without its name and its extra fields. -/
def headerSize : Nat := 30

/-- Reads the number of `n` bytes, the lowest byte first. -/
def readNumber (n : Nat) : FileAction Nat := do
  let taken ← FileAction.takeAll n
  return taken.toList.foldr (fun b high => b.toNat + 256 * high) 0

/-- Goes to the contents of a member as they are in the file: behind its header. -/
def glance (e : DirectoryEntry) : FileAction Unit := do
  FileAction.seek e.start
  if (← readNumber 4) ≠ headerMark then throw (.invalidZip "Invalid local file header")
  FileAction.seek (e.start + headerSize - 4)
  let nameLength ← readNumber 2
  let extraLength ← readNumber 2
  FileAction.seek (e.start + headerSize + nameLength + extraLength)

/-- Goes to the contents of a member, unless they are encrypted or packed in an unknown way. -/
def enter (e : DirectoryEntry) : FileAction Unit := do
  if e.flags.testBit 0 then throw (.unsupportedZip "Password required to decrypt file")
  glance e
  if e.method ≠ 0 ∧ e.method ≠ 8 then
    throw (.unsupportedZip "Compression method not supported")

def DirectoryEntry.text (e : DirectoryEntry) : List Char :=
  if e.flags.testBit 11 then Text.Utf8.decode e.name else CodePage.decode e.name

/-- Does the name stand for a directory? -/
def isDirectoryName (name : List Char) : Bool :=
  name.getLast? = some '/' || name.getLast? = some '\\'

/-- The contents of a member, as they are in the file without the checksum. -/
def unpacked (e : DirectoryEntry) (packed : ByteArray) : Except ArchiveFault ByteArray :=
  if e.method = 0 then .ok packed
  else
    match Inflate.inflate packed.toList with
    | .ok contents => .ok contents
    | .error .incomplete => .error .incompleteContents
    | .error .corrupt => .error .corruptContents

/-- Unpacks the contents of a member from where they start, and checks them against the checksum
that is recorded for them. -/
def unpack (e : DirectoryEntry) : FileAction ByteArray := do
  let packed ← FileAction.take e.compressedSize
  let contents ← MonadExcept.ofExcept (unpacked e packed)
  if (Checksum.ofBytes contents).toNat = e.checksum then return contents
  else throw .contentsChecksum

def member (e : DirectoryEntry) : ZipMember where
  name := e.text
  isDirectory := isDirectoryName e.text
  size := e.size
  glance := glance e
  enter := enter e
  unpack := unpack e

/-- The directory of an archive, and the position behind it. -/
def directory (file : ByteArray) : Except ArchiveFault (List DirectoryEntry × Nat) := do
  let d ← Directory.find file
  if FileAction.reach ≤ d.start then
    throw (.invalidZip "Could not seek to start of central directory")
  entriesFrom file d.archiveStart d.count d.start

def members (file : ByteArray) : Except ArchiveFault (List ZipMember × Nat) :=
  (directory file).map fun (entries, position) => (entries.map member, position)

end TierIsolation.Archive.Zip
