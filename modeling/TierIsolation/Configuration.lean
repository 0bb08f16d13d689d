import TierIsolation.CoordinatePattern
import TierIsolation.Path

/-!
# Configuration

A configuration names every choice of a classification and of the resolvers built from it. Each
field has a default; a `Setting` changes one of them. `testOutput` and `graphFile` are the two
places in the project that a configuration leads to.
-/

namespace TierIsolation

/-- Whether plugin tiers stand between container and application, and which. -/
inductive PluginSpace
  /-- No plugin tier. -/
  | disabled
  /-- One tier with every artifact declared with scope `compile` and its closure. -/
  | allCompile
  /-- One tier for each declared extension. -/
  | extensions
  deriving DecidableEq, Repr, Inhabited

/-- Which tier keeps an entry that is provided and also reached from application or plugins. -/
inductive Precedence
  | container
  | application
  deriving DecidableEq, Repr, Inhabited

/-- A declared extension, which becomes a plugin tier. -/
structure Extension where
  name : String
  /-- The patterns of the artifacts that make up the extension. -/
  artifact : String
  /-- A location that belongs to the tier besides those of its artifacts. -/
  metadataLocation : Option String := none
  deriving DecidableEq, Repr, Inhabited

/-- The choices of a classification and of the resolvers built from it. -/
structure Configuration where
  /-- Patterns of the artifacts kept out of the application tier. -/
  appExclusions : String := ""
  pluginSpace : PluginSpace := .disabled
  extensions : List Extension := []
  providedPrecedence : Precedence := .container
  /-- Names that start with one of these come from the host. -/
  bootPrefixes : List String := ["org.junit", "junit", "org.hamcrest", "org.mockito"]
  projectDir : String := "."
  /-- The test output, unless it is at its usual place in the project. -/
  testOutputDir : Option String := none
  /-- The dependency graph, seen from the project. -/
  dependencyGraphFile : String := "target/test-classes/dependency-graph.dot"
  edgeDelimiter : String := "->"
  /-- What the path of a symbol ends in. -/
  symbolSuffix : String := ".class"
  /-- The variable of the environment that holds the class path. -/
  classpathVariable : String := "CLASSPATH"
  deriving DecidableEq, Repr, Inhabited

namespace Configuration

/-- The artifacts kept out of the application tier. -/
def exclusions (c : Configuration) : Except (List Char × PatternFault) CoordinateMatcher :=
  CoordinateMatcher.parse c.appExclusions.toList

/-- The usual place of the test output in a project. -/
def testOutputFolder : String := "target/test-classes/"

/-- The location of the test output of the artifact under test, written like a directory entry. -/
def testOutput (c : Configuration) : String :=
  let folder :=
    match c.testOutputDir with
    | some folder => folder.toList
    | none => Path.join c.projectDir.toList testOutputFolder.toList
  String.ofList (Path.asFolder (Text.slashes folder))

def graphFile (c : Configuration) : String :=
  String.ofList (Path.join c.projectDir.toList c.dependencyGraphFile.toList)

end Configuration

/-- A change of one field of a configuration. -/
inductive Setting
  | appExclusions (patterns : String)
  | pluginSpace (space : PluginSpace)
  /-- One more extension; plugin tiers are then built from the extensions. -/
  | extension (e : Extension)
  | providedPrecedence (precedence : Precedence)
  | bootPrefixes (names : List String)
  | projectDir (path : String)
  | testOutputDir (path : String)
  | dependencyGraphFile (path : String)
  | edgeDelimiter (delimiter : String)
  | symbolSuffix (suffix : String)
  | classpathVariable (name : String)
  deriving DecidableEq, Repr

namespace Configuration

def set (c : Configuration) : Setting → Configuration
  | .appExclusions patterns => { c with appExclusions := patterns }
  | .pluginSpace space => { c with pluginSpace := space }
  | .extension e => { c with pluginSpace := .extensions, extensions := c.extensions ++ [e] }
  | .providedPrecedence precedence => { c with providedPrecedence := precedence }
  | .bootPrefixes names => { c with bootPrefixes := names }
  | .projectDir path => { c with projectDir := path }
  | .testOutputDir path => { c with testOutputDir := some path }
  | .dependencyGraphFile path => { c with dependencyGraphFile := path }
  | .edgeDelimiter delimiter => { c with edgeDelimiter := delimiter }
  | .symbolSuffix suffix => { c with symbolSuffix := suffix }
  | .classpathVariable name => { c with classpathVariable := name }

/-- The defaults with settings made one after the other. -/
def ofSettings (settings : List Setting) : Configuration := settings.foldl set {}

end Configuration

end TierIsolation
