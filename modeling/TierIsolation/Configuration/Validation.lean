import TierIsolation.Configuration
import TierIsolation.FileSystem

/-!
# Valid configurations

`Configuration.validate` accepts a configuration whose patterns are well formed and whose fields go
together, and otherwise names the first fault, in the order of the checks.
-/

namespace TierIsolation

/-- A combination of fields that cannot be honoured. -/
inductive Conflict
  | blankDelimiter
  /-- Plugin tiers are to be built from extensions, and there are none. -/
  | noExtensions
  /-- Extensions are declared, and the plugin space has no use for them. -/
  | unusedExtensions (count : Nat) (space : PluginSpace)
  | blankName
  | duplicateName (name : String)
  /-- The extension of this name selects no artifact. -/
  | noPattern (name : String)
  deriving DecidableEq, Repr

namespace Conflict

def field : Conflict → String
  | blankDelimiter => "edge_delimiter"
  | _ => "extensions"

/-- The name of a plugin space in the description of a conflict. -/
def spaceName : PluginSpace → String
  | .disabled => "Disabled"
  | .allCompile => "AllCompile"
  | .extensions => "Extensions"

def issue : Conflict → String
  | blankDelimiter => "delimiter cannot be empty"
  | noExtensions => "plugin_space is 'extensions' but no extension is declared"
  | unusedExtensions count space =>
    toString count ++ " extension(s) declared but plugin_space is '" ++ spaceName space ++ "'"
  | blankName => "extension name cannot be empty"
  | duplicateName name => "duplicate extension name '" ++ name ++ "'"
  | noPattern name => "extension '" ++ name ++ "' has no artifact pattern"

end Conflict

/-- Why a configuration, or a file that holds one, is refused. -/
inductive ConfigurationFault
  /-- A piece of a pattern list is no pattern. -/
  | pattern (piece : String) (fault : PatternFault)
  /-- The file does not say which version it is written in. -/
  | missingVersion
  | unsupportedVersion (found : Nat)
  | conflict (c : Conflict)
  | unreadable (fault : FileFault)
  /-- The file is not YAML, or not the YAML of a configuration. -/
  | notYaml
  deriving DecidableEq, Repr

namespace ConfigurationFault

def supportedVersions : List Nat := [1]

/-- The fault found in a pattern list. -/
def ofPattern (found : List Char × PatternFault) : ConfigurationFault :=
  pattern (String.ofList found.1) found.2

def message : ConfigurationFault → String
  | pattern piece fault =>
    "Invalid coordinate pattern '" ++ piece ++ "': " ++ fault.reason ++
      ". Patterns use the GAT format groupId:artifactId:type"
  | missingVersion =>
    "Missing 'version' field in configuration file. " ++
      "Add 'version: 1' to the top of your YAML file."
  | unsupportedVersion found =>
    "Unsupported configuration version " ++ toString found ++ ". Supported versions: " ++
      ", ".intercalate (supportedVersions.map toString)
  | conflict c => "Invalid configuration for '" ++ c.field ++ "': " ++ c.issue
  | unreadable fault => "IO error: " ++ fault.message
  | notYaml => "YAML parsing error"

def inspect : ConfigurationFault → String
  | pattern piece fault =>
    Inspection.record "InvalidPattern"
      [("pattern", Inspection.quoted piece), ("reason", Inspection.quoted fault.reason)]
  | missingVersion => "MissingVersion"
  | unsupportedVersion found =>
    Inspection.record "UnsupportedVersion"
      [("found", toString found),
       ("supported", Inspection.list (supportedVersions.map toString))]
  | conflict c =>
    Inspection.record "Invalid"
      [("field", Inspection.quoted c.field), ("issue", Inspection.quoted c.issue)]
  | unreadable fault => Inspection.tagged "Io" [fault.inspect]
  | notYaml => "Yaml"

end ConfigurationFault

namespace Configuration

/-- The first extension at fault. Names in `seen` are taken. -/
def validateExtensions (seen : List String) : List Extension → Except ConfigurationFault Unit
  | [] => .ok ()
  | e :: rest =>
    if Text.blank e.name.toList then .error (.conflict .blankName)
    else if e.name ∈ seen then .error (.conflict (.duplicateName e.name))
    else
      match CoordinateMatcher.parse e.artifact.toList with
      | .error found => .error (.ofPattern found)
      | .ok matcher =>
        if matcher.patterns.isEmpty then .error (.conflict (.noPattern e.name))
        else validateExtensions (e.name :: seen) rest

/-- Does the plugin space go together with the declared extensions? -/
def validateSpace (c : Configuration) : Except ConfigurationFault Unit :=
  match c.pluginSpace, c.extensions with
  | .extensions, [] => .error (.conflict .noExtensions)
  | .extensions, _ :: _ => .ok ()
  | _, [] => .ok ()
  | space, found => .error (.conflict (.unusedExtensions found.length space))

/-- Accepts a valid configuration and names the first fault of any other. -/
def validate (c : Configuration) : Except ConfigurationFault Unit :=
  match c.exclusions with
  | .error found => .error (.ofPattern found)
  | .ok _ =>
    if Text.blank c.edgeDelimiter.toList then .error (.conflict .blankDelimiter)
    else
      match c.validateSpace with
      | .error fault => .error fault
      | .ok () => validateExtensions [] c.extensions

end Configuration

end TierIsolation
