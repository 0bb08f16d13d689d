import TierIsolation.Configuration
import TierIsolation.Document.Format

/-!
# Configurations as documents

A configuration and an extension are records without fields of other names. Fields that are left
out of a configuration keep their defaults, and of an extension only the metadata location can be
left out. `Configuration.toDocument` writes a configuration, `Configuration.read?` reads one from a
tree of any format.
-/

namespace TierIsolation

/-- The value of a field, or its default if the field is left out. -/
def orDefault {α δ : Type} (read : δ → Option α) (default : α) : Option δ → Option α
  | none => some default
  | some d => read d

namespace PluginSpace

def name : PluginSpace → String
  | disabled => "disabled"
  | allCompile => "all-compile"
  | extensions => "extensions"

def named? (name : String) : Option PluginSpace :=
  if name = "disabled" then some disabled
  else if name = "all-compile" then some allCompile
  else if name = "extensions" then some extensions
  else none

/-- A plugin space is its name. -/
def toDocument (space : PluginSpace) : Document := .text space.name

def ofDocument? (d : Document) : Option PluginSpace := Document.format.named? named? d

end PluginSpace

namespace Precedence

def name : Precedence → String
  | container => "container"
  | application => "application"

def named? (name : String) : Option Precedence :=
  if name = "container" then some container
  else if name = "application" then some application
  else none

/-- A precedence is its name. -/
def toDocument (p : Precedence) : Document := .text p.name

def ofDocument? (d : Document) : Option Precedence := Document.format.named? named? d

end Precedence

namespace Extension

def fieldNames : List String := ["name", "artifact", "metadata_location"]

/-- An extension as a record; without a metadata location that field is left out. -/
def toDocument (e : Extension) : Document :=
  .object ([("name", .text e.name), ("artifact", .text e.artifact)] ++
    match e.metadataLocation with
    | none => []
    | some location => [("metadata_location", .text location)])

def read? {δ : Type} (f : Format δ) (d : δ) : Option Extension := do
  match ← f.record? fieldNames d with
  | [some name, some artifact, location] =>
    return ⟨← f.text? name, ← f.text? artifact, ← orDefault f.textOrNull? none location⟩
  | _ => none

def ofDocument? (d : Document) : Option Extension := read? Document.format d

end Extension

namespace Configuration

def fieldNames : List String :=
  ["app_exclusions", "plugin_space", "extensions", "provided_precedence", "boot_prefixes",
    "project_dir", "test_output_dir", "dependency_graph_file", "edge_delimiter", "symbol_suffix",
    "classpath_variable"]

/-- A configuration as a record with all its fields. -/
def toDocument (c : Configuration) : Document :=
  .object [
    ("app_exclusions", .text c.appExclusions),
    ("plugin_space", c.pluginSpace.toDocument),
    ("extensions", .list (c.extensions.map Extension.toDocument)),
    ("provided_precedence", c.providedPrecedence.toDocument),
    ("boot_prefixes", .list (c.bootPrefixes.map .text)),
    ("project_dir", .text c.projectDir),
    ("test_output_dir", .ofText? c.testOutputDir),
    ("dependency_graph_file", .text c.dependencyGraphFile),
    ("edge_delimiter", .text c.edgeDelimiter),
    ("symbol_suffix", .text c.symbolSuffix),
    ("classpath_variable", .text c.classpathVariable)]

def read? {δ : Type} (f : Format δ) (d : δ) : Option Configuration := do
  let defaults : Configuration := {}
  match ← f.record? fieldNames d with
  | [exclusions, space, extensions, precedence, boot, project, output, graph, delimiter, suffix,
      classpath] =>
    return {
      appExclusions := ← orDefault f.text? defaults.appExclusions exclusions
      pluginSpace := ← orDefault (f.named? PluginSpace.named?) defaults.pluginSpace space
      extensions := ← orDefault (f.list? (Extension.read? f)) defaults.extensions extensions
      providedPrecedence :=
        ← orDefault (f.named? Precedence.named?) defaults.providedPrecedence precedence
      bootPrefixes := ← orDefault f.texts? defaults.bootPrefixes boot
      projectDir := ← orDefault f.text? defaults.projectDir project
      testOutputDir := ← orDefault f.textOrNull? defaults.testOutputDir output
      dependencyGraphFile := ← orDefault f.text? defaults.dependencyGraphFile graph
      edgeDelimiter := ← orDefault f.text? defaults.edgeDelimiter delimiter
      symbolSuffix := ← orDefault f.text? defaults.symbolSuffix suffix
      classpathVariable := ← orDefault f.text? defaults.classpathVariable classpath }
  | _ => none

def ofDocument? (d : Document) : Option Configuration := read? Document.format d

end Configuration

end TierIsolation
