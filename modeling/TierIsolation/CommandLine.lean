import TierIsolation.CommandLine.Options
import TierIsolation.Configuration.File
import TierIsolation.Document.Json
import TierIsolation.Document.Tiers
import TierIsolation.Harness
import TierIsolation.Opener.Disk

/-!
# The command

The command classifies a class path and prints the tiers as JSON. `CommandLine.run` is what it does
in given surroundings: a configuration that cannot be read comes before a module without a folder,
and both before a classification that fails.
-/

namespace TierIsolation.CommandLine

/-- Why the command fails. -/
inductive CommandFault
  /-- The configuration file is refused. -/
  | configuration (fault : ConfigurationFault)
  /-- A module without a folder. -/
  | moduleWithoutFolder (given : String)
  | classification (failure : Failure)

namespace CommandFault

def inspect : CommandFault → String
  | configuration fault => fault.inspect
  | moduleWithoutFolder given =>
    Inspection.quoted ("invalid --module '" ++ given ++ "', expected name=/folder/")
  | classification failure => failure.inspect

def report (fault : CommandFault) : String := "Error: " ++ fault.inspect ++ "\n"

end CommandFault

inductive Outcome
  | printed (text : String)
  | failed (fault : CommandFault)
  | refused (fault : UsageFault)

def Outcome.exitCode : Outcome → Nat
  | printed _ => 0
  | failed _ => 1
  | refused _ => 2

namespace Options

/-- The configuration: that of the file, if one is given, with the settings made by options. -/
def configuration (o : Options) (fs : FileSystem) : Except ConfigurationFault Configuration := do
  let c ← match o.config with
    | some path => Configuration.ofFile fs path
    | none => .ok {}
  return o.settings.foldl Configuration.set c

/-- Adds the folder of a module to a table. -/
def addModule (folders : Table String) (given : String) : Except CommandFault (Table String) :=
  match Text.splitOnce ['='] given.toList with
  | none => .error (.moduleWithoutFolder given)
  | some (name, folder) =>
    .ok (ModuleFolders.withFolder folders (String.ofList (Text.trim name)) (String.ofList folder))

def folders (o : Options) : Except CommandFault ModuleFolders :=
  (o.modules.foldlM addModule .empty).map .byName

/-- What classifies in the given surroundings. -/
def harness (o : Options) (s : Surroundings) : Except CommandFault Harness := do
  let configuration ← (o.configuration s.files).mapError .configuration
  let folders ← o.folders
  return {
    configuration
    surroundings := s
    classpath := match o.classpath with
      | some paths => .fixed (Entry.ofPathList s.files paths)
      | none => .configured
    graph := match o.graph with
      | some path => .file path
      | none => .configured
    folders
    opener := .disk s.files }

def printed (o : Options) (t : Tiers) : String :=
  (if o.compact then t.toDocument.compact else t.toDocument.pretty) ++ "\n"

/-- Classifies in the given surroundings. -/
def classify (o : Options) (s : Surroundings) : Except CommandFault Tiers := do
  (← o.harness s).classify.mapError .classification

end Options

/-- Carries out the command of the given name. -/
def run (command : String) (s : Surroundings) (arguments : List String) : Outcome :=
  match Request.ofArguments arguments with
  | .error fault => .refused fault
  | .ok .help => .printed (help command)
  | .ok (.classify o) =>
    match o.classify s with
    | .error fault => .failed fault
    | .ok tiers => .printed (o.printed tiers)

end TierIsolation.CommandLine
