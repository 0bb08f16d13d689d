import TierIsolation.Artifact
import TierIsolation.Entry
import TierIsolation.ModuleFolders

/-!
# The entry of an artifact

`EntryLookup.locate` finds the entry of a class path that holds an artifact. An entry whose location
contains the repository path of the artifact, its group and name as folders, comes first. Failing
that, the artifact may be a sibling module of the project, whose build output is below the folder of
the module: an exploded folder or a packaged archive, for tests and for all else.
-/

namespace TierIsolation

/-- Why an artifact or an extension has no entry on the class path. -/
inductive LocationFault
  /-- Not in the repository, and its module has no folder. -/
  | noModuleFolder (a : Artifact) (folders : ModuleFolders)
  /-- Not in the repository, and this folder of its module holds no output for it. -/
  | noModuleOutput (a : Artifact) (folder : String)
  /-- No declared artifact is selected by the patterns of the named extension. -/
  | noMatch (patterns name : String)

/-- The folders and archives in which a class path is searched. -/
structure EntryLookup where
  classpath : List Entry
  folders : ModuleFolders

namespace EntryLookup

/-! ## Module output -/

/-- The path of an artifact in a repository: its group and its name as folders. -/
def repositoryPath (a : Artifact) : String := a.groupPath ++ "/" ++ a.identity.name ++ "/"

/-- The build folder of a module, seen from the folder of the module. -/
def buildFolder : String := "target/"

/-- The folder with the output of an artifact. -/
def explodedFolder (a : Artifact) : String :=
  if a.isTestOutput then "test-classes/" else "classes/"

/-- What the name of a packaged archive ends in. -/
def archiveEnd : List Char := ".jar".toList

/-- What the name of a packaged archive of tests ends in. -/
def testArchiveEnd : List Char := "-tests.jar".toList

/-- Is this the name of a packaged archive for the artifact? Names are on one line. -/
def isPackaged (a : Artifact) (name : List Char) : Bool :=
  !name.contains '\n' && archiveEnd.isSuffixOf name &&
    testArchiveEnd.isSuffixOf name == a.isTestOutput

/-- The archives that are looked for, in words. -/
def packagedNames (a : Artifact) : String :=
  if a.isTestOutput then "^.*-tests\\.jar$" else "*.jar excluding *-tests.jar"

/-- Is this location the output of the artifact in the given build folder? -/
def isModuleOutput (a : Artifact) (folder : String) (location : String) : Bool :=
  match Text.afterLast folder.toList location.toList with
  | none => false
  | some rest => rest == (explodedFolder a).toList || isPackaged a rest

/-! ## Look-up -/

/-- The first entry that holds the artifact in a repository. -/
def inRepository? (l : EntryLookup) (a : Artifact) : Option Entry :=
  l.classpath.find? fun e => Text.occurs (repositoryPath a).toList e.location.toList

/-- The first entry that holds the output of the module of the artifact. -/
def inModule (l : EntryLookup) (a : Artifact) : Except LocationFault Entry :=
  match l.folders.folderFor a.identity.name with
  | none => .error (.noModuleFolder a l.folders)
  | some folder =>
    let folder := folder ++ buildFolder
    match l.classpath.find? fun e => isModuleOutput a folder e.location with
    | some e => .ok e
    | none => .error (.noModuleOutput a folder)

/-- The entry of an artifact; a `pom` has none. -/
def locate (l : EntryLookup) (a : Artifact) : Except LocationFault (Option Entry) :=
  if a.isPom then .ok none
  else
    match l.inRepository? a with
    | some e => .ok (some e)
    | none => (l.inModule a).map some

def locateAll (l : EntryLookup) : List Artifact → Except LocationFault (List Entry)
  | [] => .ok []
  | a :: rest =>
    match l.locate a with
    | .error fault => .error fault
    | .ok found =>
      match locateAll l rest with
      | .error fault => .error fault
      | .ok entries => .ok (found.toList ++ entries)

end EntryLookup

namespace LocationFault

/-- What was looked for. -/
def subject : LocationFault → String
  | noModuleFolder a _ | noModuleOutput a _ => a.text
  | noMatch patterns _ => patterns

/-- Where it was looked for. -/
def attempted : LocationFault → String
  | noModuleFolder a folders =>
    "no entry containing '" ++ EntryLookup.repositoryPath a ++
      "' and no module folder mapping for '" ++ a.identity.name ++ "' (mapping used: " ++
      folders.describe ++ ")"
  | noModuleOutput a folder =>
    "no entry containing '" ++ EntryLookup.repositoryPath a ++
      "'; as multi-module dependency on module folder '" ++ folder ++
      "' using exploded suffix '" ++ EntryLookup.explodedFolder a ++ "' or packaged suffix '" ++
      EntryLookup.packagedNames a ++ "'"
  | noMatch _ name =>
    "no artifact in the dependency graph matches extension '" ++ name ++ "'"

end LocationFault

end TierIsolation
