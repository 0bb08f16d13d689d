import TierIsolation.Opener.Archives

/-!
# Entries on disk

The opener `Opener.disk` reads directories and archives from a file system, archives by the given
readers. An archive that does not exist holds nothing, as does a missing directory. The members of
an archive are listed when it is opened; once it is released, reading one of them fails.
-/

namespace TierIsolation.Opener

open Archive (Readers)

/-- Opens the archive of an entry. -/
def openArchive (readers : Readers) (location : String) (file : ByteArray) :
    Except OpenerFault Contents :=
  match formatOf? location with
  | some format => ((format.openFile readers file).map .archive).mapError .archive
  | none => .error (.unsupportedFormat location)

def contentsOf (readers : Readers) (fs : FileSystem) (e : Entry) : Except OpenerFault Contents :=
  match e.kind with
  | .directory => .ok (.folder e.location)
  | .archive =>
    match fs.lookup e.location.toList with
    | .ok (.file file) => openArchive readers e.location file
    | _ => .ok .nothing

/-- Reads the file at a path in a folder; a path that starts with a slash is not in the folder but
where it says. -/
def readInFolder (fs : FileSystem) (folder path : String) : Option ByteArray :=
  match fs.lookup (Path.join folder.toList path.toList) with
  | .ok (.file file) => some file
  | _ => none

def disk (fs : FileSystem) (readers : Readers := .standard) : Opener where
  openEntry _ e := plain (contentsOf readers fs e)
  read history h path :=
    match h.contents with
    | .folder folder => plain (.ok (readInFolder fs folder path))
    | .archive a => plain ((a.now h.number history).read path).1
    | .files content => plain (.ok (content.lookup path))
  release _ _ := none

end TierIsolation.Opener
