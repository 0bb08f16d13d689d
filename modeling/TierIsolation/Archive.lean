import TierIsolation.Ordered
import TierIsolation.Text

/-!
# Archives

An archive is read in two steps. When it is opened, a reader for its format lists the members in
the order of the file, and the regular ones are entered into an index, each under the normal form
of its name (`Archive.indexOf`). Their contents are read when they are asked for, from the file that
stays open: each read starts where the file was left and leaves it somewhere else (`FileAction`).

The readers are those of `TierIsolation.Archive.Tar` and `TierIsolation.Archive.Zip`, or any others
(`Archive.Readers`). Of a tar member they tell where it is in the file. A zip member is known to its
reader alone, which goes to it and unpacks it (`ZipMember`).
-/

namespace TierIsolation

/-- Why an archive, or one of its members, cannot be read. -/
inductive ArchiveFault
  /-- The checksum in the header of a tar member is not that of the header. -/
  | headerChecksum
  | partialBlock
  /-- A tar file ends before the contents of a member do. -/
  | endOfContents
  /-- A tar header has this text where the number `field` should be. -/
  | notNumber (text field : String)
  /-- A tar header has these bytes where the number `field` should be. -/
  | numberNotText (text field : String)
  /-- The size of a tar member is out of all bounds. -/
  | sizeOverflow
  /-- A tar file ends after a description of the member that should follow. -/
  | noDescribedMember
  | twoLongNames
  /-- A tar member has two sets of extended attributes. -/
  | twoExtensions
  /-- The parts of a sparse tar member contradict each other. -/
  | sparse (issue : String)
  | invalidZip (issue : String)
  | unsupportedZip (issue : String)
  | endOfFile
  /-- The contents of a zip member do not have the checksum that is recorded for them. -/
  | contentsChecksum
  /-- A zip file names a position that no file has. -/
  | outOfReach
  | incompleteContents
  | corruptContents
  /-- There is no member of that number. -/
  | noSuchMember
  deriving DecidableEq, Repr

def ArchiveFault.message : ArchiveFault → String
  | headerChecksum => "archive header checksum mismatch"
  | partialBlock => "failed to read entire block"
  | endOfContents => "unexpected EOF during skip"
  | notNumber text field =>
    "numeric field was not a number: " ++ text ++ " when getting " ++ field
  | numberNotText text field =>
    "numeric field did not have utf-8 text: " ++ text ++ " when getting " ++ field
  | sizeOverflow => "size overflow"
  | noDescribedMember =>
    "members found describing a future member but no future member found"
  | twoLongNames => "two long name entries describing the same member"
  | twoExtensions => "two pax extensions entries describing the same member"
  | sparse issue => issue
  | invalidZip issue => "invalid Zip archive: " ++ issue
  | unsupportedZip issue => "unsupported Zip archive: " ++ issue
  | endOfFile => "failed to fill whole buffer"
  | contentsChecksum => "Invalid checksum"
  | outOfReach => "Invalid argument (os error 22)"
  | incompleteContents => "incomplete deflate stream"
  | corruptContents => "corrupt deflate stream"
  | noSuchMember => "specified file not found in archive"

/-! ## Open files -/

/-- A file that is open for reading, and the position that the next read starts from. -/
structure OpenFile where
  bytes : ByteArray
  position : Nat := 0

/-- Something done with the bytes of an open file, from the position on that it was left at. It
leaves the file at another position, also if it fails. -/
abbrev FileAction := ReaderT ByteArray (ExceptT ArchiveFault (StateM Nat))

namespace FileAction

/-- The positions in a file that can be gone to are below this bound. -/
def reach : Nat := Nat.pow 2 63

/-- Goes to a position. -/
def seek (position : Nat) : FileAction Unit :=
  if reach ≤ position then throw .outOfReach else set position

/-- Reads some bytes, or as many as there are. -/
def take (n : Nat) : FileAction ByteArray := do
  let file ← read
  let position ← get
  let taken := file.extract position (position + n)
  set (position + taken.size)
  return taken

/-- Reads just so many bytes. -/
def takeAll (n : Nat) : FileAction ByteArray := do
  let taken ← take n
  if taken.size < n then throw .endOfFile else return taken

end FileAction

def OpenFile.perform {α : Type} (f : OpenFile) (action : FileAction α) :
    Except ArchiveFault α × OpenFile :=
  let (result, position) := action f.bytes f.position
  (result, { f with position })

namespace Archive

/-! ## Members -/

/-- Where the contents of a tar member are in the file. -/
structure Extent where
  offset : Nat
  size : Nat
  deriving DecidableEq, Repr

/-- A member of a tar file, as its reader lists it. -/
structure TarMember where
  name : List Char
  isFile : Bool
  extent : Extent
  deriving DecidableEq, Repr

/-- A member of a zip file, as its reader has it. -/
structure ZipMember where
  name : List Char
  isDirectory : Bool
  /-- The size of the contents, as it is recorded. -/
  size : Nat
  /-- Goes to the member without a look at how it is packed. -/
  glance : FileAction Unit
  /-- Goes to the contents of the member, if they can be unpacked at all. -/
  enter : FileAction Unit
  /-- Unpacks the contents from where they start. -/
  unpack : FileAction ByteArray

/-- Readers for archives. They list the members of a file that was just opened, and say at which
position they leave it. -/
structure Readers where
  tar : ByteArray → Except ArchiveFault (List TarMember × Nat)
  zip : ByteArray → Except ArchiveFault (List ZipMember × Nat)

/-! ## The index -/

/-- A name without the leading names `.`. -/
def dropHere : List Char → List Char
  | '.' :: '/' :: rest => dropHere rest
  | name => name

/-- The normal form of a member name: slashes only, no leading `.`. -/
def normalName (name : List Char) : List Char := dropHere (Text.slashes name)

/-- A member of a file, and where it is. -/
structure Listed (ι : Type) where
  name : List Char
  /-- A file, not a directory, link or other special member. -/
  isRegular : Bool
  place : ι

/-- What a member is entered under, unless it is no regular one. -/
def Listed.indexed? {ι : Type} (m : Listed ι) : Option (String × ι) :=
  if m.isRegular then some (String.ofList (normalName m.name), m.place) else none

/-- Enters the members of a file into an index. Of two with one name the later one counts. -/
def indexOf {ι : Type} (members : List (Listed ι)) : Table ι :=
  .ofList (members.filterMap Listed.indexed?)

def TarMember.listed (m : TarMember) : Listed Extent := ⟨m.name, m.isFile, m.extent⟩

/-- Zip members are found by their numbers in the order of the file. -/
def ZipMember.listed (m : ZipMember) (number : Nat) : Listed Nat :=
  ⟨m.name, !m.isDirectory, number⟩

end Archive

/-! ## Open archives -/

/-- An archive that was opened: what it is read from, unless it was released, and where its regular
members are, found by the normal forms of their names. -/
structure Archive (σ ι : Type) where
  source : Option σ
  index : Table ι

/-- A zip file that is open, with its members. -/
structure Archive.ZipArchive where
  file : OpenFile
  members : List Archive.ZipMember

inductive OpenArchive
  | tar (a : Archive OpenFile Archive.Extent)
  | zip (a : Archive Archive.ZipArchive Nat)

end TierIsolation
