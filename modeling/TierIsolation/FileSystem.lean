import TierIsolation.Path
import TierIsolation.Text.Inspection

/-!
# File systems

A file system (`FileSystem`) says what is at every absolute path, given as its list of names from
the root, and which folder relative paths start from. `locate` follows a written path name by name:
every name before the last must be a folder, and so must the last if a slash follows it. `read?` and
`readText?` give the contents of a file, `isFile` and `isFolder` ask without failing.
-/

namespace TierIsolation

/-- Why a path or a file cannot be used. -/
inductive FileFault
  | notFound
  /-- A file stands where the path goes on. -/
  | notFolder
  /-- A folder has no contents to read. -/
  | isFolder
  /-- A name or the whole path is longer than the system allows. -/
  | nameTooLong
  /-- The path holds a NUL character. -/
  | nulInPath
  /-- The contents are not UTF-8. -/
  | notText
  deriving DecidableEq, Repr

namespace FileFault

/-- The operating system's number, name and wording of a fault it reports itself. -/
def system? : FileFault → Option (Nat × String × String)
  | notFound => some (2, "NotFound", "No such file or directory")
  | notFolder => some (20, "NotADirectory", "Not a directory")
  | isFolder => some (21, "IsADirectory", "Is a directory")
  | nameTooLong => some (36, "InvalidFilename", "File name too long")
  | nulInPath | notText => none

/-- The wording of a fault found before or after asking the operating system. -/
def local? : FileFault → Option (String × String)
  | nulInPath => some ("InvalidInput", "file name contained an unexpected NUL byte")
  | notText => some ("InvalidData", "stream did not contain valid UTF-8")
  | _ => none

def message (fault : FileFault) : String :=
  match fault.system?, fault.local? with
  | some (code, _, text), _ => text ++ " (os error " ++ toString code ++ ")"
  | none, some (_, text) => text
  | none, none => ""

def inspect (fault : FileFault) : String :=
  match fault.system?, fault.local? with
  | some (code, kind, text), _ =>
    Inspection.record "Os"
      [("code", toString code), ("kind", kind), ("message", Inspection.quoted text)]
  | none, some (kind, text) =>
    Inspection.record "Error" [("kind", kind), ("message", Inspection.quoted text)]
  | none, none => ""

end FileFault

/-- What a path leads to. -/
inductive FileNode
  | file (contents : ByteArray)
  | folder

/-- What is at every absolute path, and where relative paths start. -/
structure FileSystem where
  node : List (List Char) → Option FileNode
  workingFolder : List (List Char) := []

namespace FileSystem

variable (fs : FileSystem)

/-- The longest name in bytes. -/
def nameLimit : Nat := 255

/-- The longest path in bytes. -/
def pathLimit : Nat := 4095

/-- The length of a text in UTF-8. -/
def byteLength (s : List Char) : Nat := (s.map Char.utf8Size).foldr (· + ·) 0

/-- One step from the place `here`: to itself, to the folder above or to a name in it. -/
def step (here : List (List Char)) (name : List Char) : Except FileFault (List (List Char)) :=
  match fs.node here with
  | none => .error .notFound
  | some (.file _) => .error .notFolder
  | some .folder =>
    if name = ['.'] then .ok here
    else if name = ['.', '.'] then .ok here.dropLast
    else if byteLength name > nameLimit then .error .nameTooLong
    else if (fs.node (here ++ [name])).isSome then .ok (here ++ [name])
    else .error .notFound

/-- Follows names one after the other. -/
def walk (here : List (List Char)) : List (List Char) → Except FileFault (List (List Char))
  | [] => .ok here
  | name :: rest =>
    match fs.step here name with
    | .error fault => .error fault
    | .ok next => walk next rest

/-- The absolute place that a written path leads to. -/
def locate (path : List Char) : Except FileFault (List (List Char)) :=
  if path.contains '\x00' then .error .nulInPath
  else if path.isEmpty then .error .notFound
  else if byteLength path > pathLimit then .error .nameTooLong
  else
    let start := if Path.isAbsolute path then [] else fs.workingFolder
    let rest := Path.names path
    fs.walk start (if path.getLast? = some '/' then rest ++ [['.']] else rest)

/-- The places that a written path leads through if all of them are folders, seen from the given
folder and without looking at them. -/
def route (folder : List (List Char)) (path : List Char) : List (List (List Char)) :=
  let start := if Path.isAbsolute path then [] else folder
  (Path.names path).foldl (fun places name =>
    let here := places.head?.getD start
    (if name = ['.'] then here else if name = ['.', '.'] then here.dropLast else here ++ [name]) ::
      places) [start] |>.reverse

/-- What a written path leads to. -/
def lookup (path : List Char) : Except FileFault FileNode := do
  let place ← fs.locate path
  match fs.node place with
  | some node => .ok node
  | none => .error .notFound

def isFile (path : List Char) : Bool :=
  match fs.lookup path with
  | .ok (.file _) => true
  | _ => false

def isFolder (path : List Char) : Bool :=
  match fs.lookup path with
  | .ok .folder => true
  | _ => false

/-- The contents of a file. -/
def read? (path : List Char) : Except FileFault ByteArray := do
  match ← fs.lookup path with
  | .file contents => .ok contents
  | .folder => .error .isFolder

def readText? (path : List Char) : Except FileFault String := do
  match String.fromUTF8? (← fs.read? path) with
  | some text => .ok text
  | none => .error .notText

/-! ## Building file systems -/

/-- The places of `path` seen from `folder`: the folders above it, every folder on the way, then the
place itself. -/
def placesFrom (folder : List (List Char)) (path : List Char) : List (List (List Char)) :=
  (List.range folder.length).map (folder.take ·) ++ route folder path

/-- What is on a disk after writing one file with the folders on its way; a path that ends in a
slash is a folder. -/
def afterWriting (folder : List (List Char)) (disk : List (List (List Char) × FileNode))
    (path : List Char) (contents : ByteArray) : List (List (List Char) × FileNode) :=
  let places := placesFrom folder path
  let disk := places.dropLast.map (·, .folder) ++ disk
  match places.getLast? with
  | none => disk
  | some place =>
    (place, if path.getLast? = some '/' then .folder else .file contents) :: disk

/-- The file system that holds the given files, their paths seen from the working folder. -/
def ofFiles (workingFolder : List (List Char)) (files : List (String × ByteArray)) : FileSystem :=
  let disk := files.foldl
    (fun disk (path, contents) => afterWriting workingFolder disk path.toList contents)
    ((placesFrom workingFolder []).map (·, FileNode.folder))
  { node := fun place => disk.lookup place, workingFolder }

end FileSystem

end TierIsolation
