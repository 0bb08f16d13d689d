import TierIsolation.CommandLine

/-!
# The program

`main` looks at the files and variables that the command needs, carries the command out and prints
what comes of it.
-/

namespace TierIsolation.CommandLine

/-- The operating system's number for reading a folder as a file. -/
def folderCode : UInt32 := 21

/-- Looks at an absolute place. The contents of a file are read only if they are wanted. -/
def lookAt (place : List (List Char)) (wanted : Bool) : IO (Option FileNode) := do
  let path := "/" ++ "/".intercalate (place.map String.ofList)
  try
    if wanted then return some (.file (← IO.FS.readBinFile path))
    else
      let handle ← IO.FS.Handle.mk path .read
      let _ ← handle.read 1
      return some (.file .empty)
  catch e =>
    match e with
    | .inappropriateType _ code _ => return if code == folderCode then some .folder else none
    | _ => return none

/-- Looks at the files that paths lead to, with the contents of those in `texts`. -/
def look (texts others : List String) (environment : List (String × String)) : IO Surroundings := do
  let workingFolder := Path.names (toString (← IO.currentDir)).toList
  let mut found : List (List (List Char) × Option FileNode) := []
  for (path, wanted) in texts.map (·, true) ++ others.map (·, false) do
    let places := FileSystem.route workingFolder path.toList
    for place in places.dropLast do
      found := found ++ [(place, ← lookAt place false)]
    if let some place := places.getLast? then
      found := found ++ [(place, ← lookAt place wanted)]
  let seen := found
  return {
    files := { node := fun place => (seen.lookup place).join, workingFolder }
    environment }

/-- Looks at what a classification needs. -/
def Options.look (o : Options) : IO Surroundings := do
  let first ← CommandLine.look o.config.toList [] []
  match o.configuration first.files with
  | .error _ => return first
  | .ok c =>
    let value ← IO.getEnv c.classpathVariable
    let paths := (o.classpath <|> value).getD ""
    CommandLine.look (o.config.toList ++ [o.graph.getD c.graphFile])
      ((paths.toList.splitOn ':').map String.ofList)
      (value.toList.map (c.classpathVariable, ·))

end TierIsolation.CommandLine

open TierIsolation CommandLine in
def main (arguments : List String) : IO UInt32 := do
  let s ← match Request.ofArguments arguments with
    | .ok (.classify o) => o.look
    | _ => look [] [] []
  let outcome := run "tier-isolation" s arguments
  match outcome with
  | .printed text => IO.print text
  | .failed fault => IO.eprint fault.report
  | .refused fault => IO.eprintln ("error: " ++ fault.message)
  return outcome.exitCode.toUInt32
