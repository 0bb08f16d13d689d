import TierIsolation.Archive.Tar
import TierIsolation.Archive.Zip
import TierIsolation.Opener

/-!
# Open archives

An archive is opened by a reader for its format (`Archive.Readers`), which its location tells. Every
read of a member goes to its contents, sets memory aside for as much as is recorded of them, and
reads or unpacks them (`OpenFile.readContents`); the file stays where that left it. Once an archive
is released, reading a member fails.

What has become of an open archive is told by the history: `OpenArchive.now`.
-/

namespace TierIsolation

open Archive (Extent Readers ZipArchive)

/-- The readers of this library. -/
def Archive.Readers.standard : Readers where
  tar := Tar.members
  zip := Zip.members

namespace Opener

/-! ## Formats -/

/-- The formats of archives that can be read. -/
inductive ArchiveFormat
  | tar
  | zip
  deriving DecidableEq, Repr

/-- The format of the archives whose names have this extension, in small letters. -/
def ArchiveFormat.ofExtension? (extension : List Char) : Option ArchiveFormat :=
  if extension = "tar".toList then some .tar
  else if extension ∈ ["jar".toList, "zip".toList, "war".toList] then some .zip
  else none

/-- The format of the archive at a location, told from its extension. -/
def formatOf? (location : String) : Option ArchiveFormat :=
  ArchiveFormat.ofExtension? (Text.lower ((Path.extension? location.toList).getD []))

/-! ## Opening -/

def openTar (readers : Readers) (file : ByteArray) : Except ArchiveFault OpenArchive := do
  let (members, position) ← readers.tar file
  return .tar ⟨some ⟨file, position⟩, Archive.indexOf (members.map (·.listed))⟩

/-- Opens a zip file, with a look at every member. -/
def openZip (readers : Readers) (file : ByteArray) : Except ArchiveFault OpenArchive := do
  let (members, position) ← readers.zip file
  match OpenFile.perform ⟨file, position⟩ (members.forM (·.glance)) with
  | (.error fault, _) => .error fault
  | (.ok (), f) =>
    return .zip ⟨some ⟨f, members⟩, Archive.indexOf (members.zipIdx.map fun (m, i) => m.listed i)⟩

def ArchiveFormat.openFile (format : ArchiveFormat) (readers : Readers) (file : ByteArray) :
    Except ArchiveFault OpenArchive :=
  match format with
  | tar => openTar readers file
  | zip => openZip readers file

end Opener

/-! ## Reading and releasing -/

/-- Memory can be set aside for fewer bytes than this. -/
def OpenFile.capacity : Nat := Nat.pow 2 63

/-- Reads contents of a recorded size: goes to them, sets memory aside, and unpacks them. -/
def OpenFile.readContents (enter : FileAction Unit) (size : Nat) (unpack : FileAction ByteArray)
    (f : OpenFile) : Except OpenerFault ByteArray × OpenFile :=
  match f.perform enter with
  | (.error fault, f) => (.error (.archive fault), f)
  | (.ok (), f) =>
    if capacity ≤ size then (.error .capacityOverflow, f)
    else
      let (contents, f) := f.perform unpack
      (contents.mapError .archive, f)

/-- Reads the contents of a tar member. -/
def OpenFile.readExtent (f : OpenFile) (place : Extent) : Except OpenerFault ByteArray × OpenFile :=
  f.readContents (.seek place.offset) place.size (.take place.size)

/-- Reads the contents of the member of a zip file that has this number. -/
def Archive.ZipArchive.readMember (z : ZipArchive) (number : Nat) :
    Except OpenerFault ByteArray × ZipArchive :=
  match z.members[number]? with
  | none => (.error (.archive .noSuchMember), z)
  | some m =>
    let (contents, file) := z.file.readContents m.enter m.size m.unpack
    (contents, { z with file })

namespace Archive

variable {σ ι : Type} (a : Archive σ ι)

/-- Reads the member that a path leads to, unless the archive was released. -/
def read (readAt : σ → ι → Except OpenerFault ByteArray × σ) (path : String) :
    Except OpenerFault (Option ByteArray) × Archive σ ι :=
  match a.index.get? path with
  | none => (.ok none, a)
  | some place =>
    match a.source with
    | none => (.error .alreadyReleased, a)
    | some source =>
      let (contents, source) := readAt source place
      (contents.map some, { a with source := some source })

def release : Archive σ ι := { a with source := none }

end Archive

namespace OpenArchive

def read (a : OpenArchive) (path : String) :
    Except OpenerFault (Option ByteArray) × OpenArchive :=
  match a with
  | tar a =>
    let (found, a) := a.read OpenFile.readExtent path
    (found, .tar a)
  | zip a =>
    let (found, a) := a.read ZipArchive.readMember path
    (found, .zip a)

def release : OpenArchive → OpenArchive
  | tar a => .tar a.release
  | zip a => .zip a.release

/-- What has become of an archive since it was opened as the entry of a number. -/
def now (a : OpenArchive) (number : Nat) : History → OpenArchive
  | [] => a
  | event :: past =>
    let before := a.now number past
    match event with
    | .read h path _ | .readFailed h path =>
      if h.number = number then (before.read path).2 else before
    | .released h _ => if h.number = number then before.release else before
    | .opened _ | .openFailed .. => before

end OpenArchive

end TierIsolation
