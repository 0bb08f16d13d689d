import TierIsolation.Ordered
import TierIsolation.Text

/-!
# Module folders

A sibling module of a project is found in its own build output. `ModuleFolders` maps the name of
an artifact to the folder of its module, either by a table or the same for every artifact. Folders
are kept in the normal form `normalize` gives: slashes only, one at each end.
-/

namespace TierIsolation

/-- The folders of the modules of a project. -/
inductive ModuleFolders
  /-- A folder for each listed artifact name. -/
  | byName (folders : Table String)
  /-- One folder for every artifact. -/
  | always (folder : String)

namespace ModuleFolders

/-- The normal form of a folder: a slash at each end, no backslash. -/
def normalize (folder : String) : String :=
  let inner := Text.dropBothWhile (· == '/') (Text.slashes (Text.trim folder.toList))
  if inner.isEmpty then "/" else String.ofList ('/' :: inner ++ ['/'])

def none : ModuleFolders := byName .empty

instance : Inhabited ModuleFolders := ⟨none⟩

/-- The table of the given names and folders; of two folders for one name the later counts. -/
def ofPairs (pairs : List (String × String)) : ModuleFolders :=
  byName (.ofList (pairs.map fun (name, folder) => (name, normalize folder)))

/-- A folder for one more name. -/
def withFolder (folders : Table String) (name folder : String) : Table String :=
  folders.insert name (normalize folder)

/-- The same folder for every artifact. -/
def fixed (folder : String) : ModuleFolders := always (normalize folder)

/-- The folder of the module that an artifact name belongs to. -/
def folderFor : ModuleFolders → String → Option String
  | byName folders, name => folders.get? name
  | always folder, _ => some folder

/-- The mapping in words. -/
def describe : ModuleFolders → String
  | byName folders =>
    "\x7b" ++ ", ".intercalate (folders.entries.map fun (name, folder) => name ++ "=" ++ folder) ++
      "\x7d"
  | always folder => "every artifact → " ++ folder

end ModuleFolders

end TierIsolation
