import TierIsolation.Configuration.Validation
import TierIsolation.Document.Configuration
import TierIsolation.Yaml.Node.Format
import TierIsolation.Yaml.Node.Grammar
import TierIsolation.Yaml.Printer

/-!
# Configuration files

A configuration file is a YAML record that says which version it is written in and holds a
configuration. `Configuration.toYaml` writes such a file. `Configuration.ofYaml` reads one and
accepts the configuration if the version is supported and the configuration is valid; a file that is
no such record comes before a missing version, and a missing version before one that is not
supported.
-/

namespace TierIsolation

/-- What a configuration file says. -/
structure ConfigurationFile where
  version : Option Nat
  configuration : Configuration
  deriving DecidableEq, Repr

namespace ConfigurationFile

def fieldNames : List String := ["version", "isolation"]

def toDocument (file : ConfigurationFile) : Document :=
  .object [
    ("version", match file.version with
      | none => .null
      | some n => .number n 0),
    ("isolation", file.configuration.toDocument)]

/-- Reads a file from the tree of its text. -/
def ofTree? (t : Yaml.Tree) : Option ConfigurationFile := do
  match ← t.format.record? fieldNames t.root with
  | [version, isolation] =>
    return {
      version := ← orDefault (t.orNull? t.natural?) none version
      configuration := ← orDefault (Configuration.read? t.format) {} isolation }
  | _ => none

/-- The configuration of a file, if its version is supported and the configuration is valid. -/
def accept (file : ConfigurationFile) : Except ConfigurationFault Configuration :=
  match file.version with
  | none => .error .missingVersion
  | some version =>
    if version ∈ ConfigurationFault.supportedVersions then
      file.configuration.validate.map fun _ => file.configuration
    else .error (.unsupportedVersion version)

end ConfigurationFile

namespace Configuration

/-- The version that configurations are written in. -/
def currentVersion : Nat := 1

def toFile (c : Configuration) : ConfigurationFile := ⟨some currentVersion, c⟩

def toYaml (c : Configuration) : String := c.toFile.toDocument.yaml

/-- The configuration of the tree of a text, if there is one. -/
def ofTree (t : Option Yaml.Tree) : Except ConfigurationFault Configuration :=
  match t.bind ConfigurationFile.ofTree? with
  | some file => file.accept
  | none => .error .notYaml

def ofYaml (text : String) : Except ConfigurationFault Configuration :=
  ofTree (Yaml.Tree.parse? text)

def ofFile (fs : FileSystem) (path : String) : Except ConfigurationFault Configuration :=
  match fs.readText? path.toList with
  | .error fault => .error (.unreadable fault)
  | .ok text => ofYaml text

/-- The configuration of the project in a folder: that of its file, or else the defaults. -/
def ofProject (fs : FileSystem) (folder : String) (file : Option String) :
    Except ConfigurationFault Configuration := do
  let c ← match file with
    | some path => ofFile fs path
    | none => .ok {}
  return c.set (.projectDir folder)

end Configuration

end TierIsolation
