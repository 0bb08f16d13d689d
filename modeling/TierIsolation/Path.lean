import TierIsolation.Text

/-!
# File paths

A path is a text of names between slashes. Empty names and names `.` inside a path stand for the
folder reached so far, `..` for the folder above it; a path that starts with a slash is absolute.
-/

namespace TierIsolation.Path

def isAbsolute (path : List Char) : Bool := path.head? = some '/'

/-- The path `path` as seen from the folder `base`; an absolute path is seen alike from anywhere. -/
def join (base path : List Char) : List Char :=
  if isAbsolute path then path
  else if base.isEmpty || base.getLast? = some '/' then base ++ path
  else base ++ '/' :: path

/-- The text with a slash at its end. -/
def asFolder (path : List Char) : List Char :=
  if path.getLast? = some '/' then path else path ++ ['/']

/-- The names between the slashes of a path that are not empty. -/
def names (path : List Char) : List (List Char) := (path.splitOn '/').filter (!·.isEmpty)

/-- The last name of a path, unless it leads upwards. -/
def fileName? (path : List Char) : Option (List Char) :=
  ((names path).filter (· != ['.'])).getLast?.filter (· != ['.', '.'])

/-- What follows the last dot of the file name; the name of a hidden file has no extension. -/
def extension? (path : List Char) : Option (List Char) := do
  let name ← fileName? path
  let extension ← Text.afterLast ['.'] name
  if extension.length + 1 < name.length then some extension else none

end TierIsolation.Path
