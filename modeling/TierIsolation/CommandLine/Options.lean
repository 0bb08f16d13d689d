import TierIsolation.Document.Configuration

/-!
# Options of the command line

`Request.ofArguments` reads the arguments of the command. An option is written with two dashes and
its name or, where it has one, with one dash and its letter. Its value is the next argument, or
follows an equals sign or the letter itself. Every option but `--module` is given at most once, and
arguments that are no options are refused.
-/

namespace TierIsolation.CommandLine

/-- The options that have a value. -/
inductive Parameter
  | graph
  | classpath
  | config
  | projectDir
  | exclusions
  | pluginSpace
  | precedence
  | moduleFolder
  deriving DecidableEq, Repr

namespace Parameter

/-- All options that have a value, in the order of the help text. -/
def all : List Parameter :=
  [graph, classpath, config, projectDir, exclusions, pluginSpace, precedence, moduleFolder]

def name : Parameter → String
  | graph => "graph"
  | classpath => "classpath"
  | config => "config"
  | projectDir => "project-dir"
  | exclusions => "exclusions"
  | pluginSpace => "plugin-space"
  | precedence => "precedence"
  | moduleFolder => "module"

def letter? : Parameter → Option Char
  | graph => some 'g'
  | classpath => some 'c'
  | projectDir => some 'p'
  | exclusions => some 'e'
  | moduleFolder => some 'm'
  | config | pluginSpace | precedence => none

/-- What stands for the value of an option in the help text. -/
def placeholder : Parameter → String
  | graph => "GRAPH"
  | classpath => "CLASSPATH"
  | config => "CONFIG"
  | projectDir => "PROJECT_DIR"
  | exclusions => "EXCLUSIONS"
  | pluginSpace => "PLUGIN_SPACE"
  | precedence => "PRECEDENCE"
  | moduleFolder => "MODULES"

def description : Parameter → String
  | graph => "Dependency graph file (defaults to the configured graph file)"
  | classpath =>
    "Classpath as a platform path list (defaults to the configured environment variable)"
  | config => "YAML isolation config"
  | projectDir => "Project directory"
  | exclusions => "Application exclusion patterns (group:name:type, comma separated)"
  | pluginSpace =>
    "Plugin tiers to build [possible values: disabled, all-compile, extensions]"
  | precedence =>
    "Which tier wins entries reached as provided and from the application " ++
      "[possible values: container, application]"
  | moduleFolder => "Module folder mapping, \x60artifact-name=/folder/\x60 (repeatable)"

def named? (name : String) : Option Parameter := all.find? (·.name == name)

def ofLetter? (c : Char) : Option Parameter := all.find? (·.letter? == some c)

end Parameter

structure Options where
  graph : Option String := none
  classpath : Option String := none
  config : Option String := none
  projectDir : Option String := none
  exclusions : Option String := none
  pluginSpace : Option PluginSpace := none
  precedence : Option Precedence := none
  /-- The folders of modules, each as a name and a folder with an equals sign between them. -/
  modules : List String := []
  /-- Whether the result is written on one line. -/
  compact : Bool := false
  deriving DecidableEq, Repr

/-- Why the arguments are refused. -/
inductive UsageFault
  | unexpected (argument : String)
  | missingValue (option : String)
  /-- An option that is given a value it does not have. -/
  | unneededValue (option : String)
  | invalidValue (option value : String)
  /-- An option that is given twice. -/
  | repeated (option : String)
  deriving DecidableEq, Repr

def UsageFault.message : UsageFault → String
  | unexpected argument => "unexpected argument '" ++ argument ++ "' found"
  | missingValue option => "a value is required for '--" ++ option ++ "' but none was supplied"
  | unneededValue option => "no value is accepted for '--" ++ option ++ "'"
  | invalidValue option value => "invalid value '" ++ value ++ "' for '--" ++ option ++ "'"
  | repeated option => "the argument '--" ++ option ++ "' cannot be used multiple times"

namespace Options

/-- An option that is given once. -/
def once {α : Type} (p : Parameter) (given : Option α) (value : Option α) (written : String) :
    Except UsageFault (Option α) :=
  if given.isSome then .error (.repeated p.name)
  else
    match value with
    | some value => .ok (some value)
    | none => .error (.invalidValue p.name written)

/-- A path, which is not empty. -/
def path? (s : String) : Option String := if s.isEmpty then none else some s

/-- The options with one more given. -/
def set (o : Options) (p : Parameter) (s : String) : Except UsageFault Options :=
  match p with
  | .graph => do return { o with graph := ← once p o.graph (path? s) s }
  | .classpath => do return { o with classpath := ← once p o.classpath (some s) s }
  | .config => do return { o with config := ← once p o.config (path? s) s }
  | .projectDir => do return { o with projectDir := ← once p o.projectDir (path? s) s }
  | .exclusions => do return { o with exclusions := ← once p o.exclusions (some s) s }
  | .pluginSpace => do
    return { o with pluginSpace := ← once p o.pluginSpace (PluginSpace.named? s) s }
  | .precedence => do
    return { o with precedence := ← once p o.precedence (Precedence.named? s) s }
  | .moduleFolder => .ok { o with modules := o.modules ++ [s] }

def settings (o : Options) : List Setting :=
  (o.projectDir.map Setting.projectDir).toList ++
    (o.exclusions.map Setting.appExclusions).toList ++
    (o.pluginSpace.map Setting.pluginSpace).toList ++
    (o.precedence.map Setting.providedPrecedence).toList

end Options

/-! ## Arguments -/

inductive Argument
  /-- Two dashes alone: no options follow. -/
  | lastOption
  /-- A name after two dashes, and what follows an equals sign. -/
  | named (name : String) (attached : Option String)
  /-- Letters after one dash. -/
  | letters (first : Char) (rest : List Char)
  | other
  deriving DecidableEq, Repr

/-- Tells apart what an argument can be. -/
def Argument.ofText (s : String) : Argument :=
  match s.toList with
  | ['-', '-'] => lastOption
  | '-' :: '-' :: rest =>
    match Text.splitOnce ['='] rest with
    | some (name, attached) => named (String.ofList name) (some (String.ofList attached))
    | none => named (String.ofList rest) none
  | '-' :: first :: rest => letters first rest
  | _ => other

inductive Request
  | help
  | classify (o : Options)
  deriving DecidableEq, Repr

namespace Request

/-- The value that follows the letter of an option, if there is one. -/
def afterLetter : List Char → Option String
  | [] => none
  | '=' :: value => some (String.ofList value)
  | value => some (String.ofList value)

/-- Reads arguments, `o` given before them. -/
def read (o : Options) : List String → Except UsageFault Request
  | [] => .ok (.classify o)
  | argument :: rest =>
    let unexpected := UsageFault.unexpected argument
    let valued (p : Parameter) (attached : Option String) : Except UsageFault Request :=
      match attached, rest with
      | some value, rest =>
        match o.set p value with
        | .ok o => read o rest
        | .error fault => .error fault
      | none, [] => .error (.missingValue p.name)
      | none, value :: rest =>
        if Argument.ofText value = .other then
          match o.set p value with
          | .ok o => read o rest
          | .error fault => .error fault
        else .error (.missingValue p.name)
    match Argument.ofText argument with
    | .lastOption =>
      match rest with
      | [] => .ok (.classify o)
      | extra :: _ => .error (.unexpected extra)
    | .named "help" none => .ok .help
    | .named "help" (some _) => .error (.unneededValue "help")
    | .named "compact" none =>
      if o.compact then .error (.repeated "compact") else read { o with compact := true } rest
    | .named "compact" (some _) => .error (.unneededValue "compact")
    | .named name attached =>
      match Parameter.named? name with
      | some p => valued p attached
      | none => .error unexpected
    | .letters first attached =>
      if first = 'h' then .ok .help
      else
        match Parameter.ofLetter? first with
        | some p => valued p (afterLetter attached)
        | none => .error unexpected
    | .other => .error unexpected

/-- What the arguments ask for. -/
def ofArguments (arguments : List String) : Except UsageFault Request := read {} arguments

end Request

/-! ## Help -/

/-- How an option is written, behind its letter if it has one. -/
def spelling (letter? : Option Char) (name : String) : String :=
  match letter? with
  | some c => "-" ++ c.toString ++ ", --" ++ name
  | none => "    --" ++ name

/-- The spellings of all options, with what the help text says about them. -/
def helpRows : List (String × String) :=
  Parameter.all.map (fun p =>
    (spelling p.letter? (p.name ++ " <" ++ p.placeholder ++ ">"), p.description)) ++
  [(spelling none "compact", "Compact JSON output"), (spelling (some 'h') "help", "Print help")]

/-- Two columns of texts, one row a line, the second column two blanks behind the longest text of the
first. -/
def columns (rows : List (String × String)) : String :=
  let width := (rows.map (·.1.length)).foldl max 0
  String.join (rows.map fun (left, right) =>
    "  " ++ left ++ String.ofList (List.replicate (width - left.length + 2) ' ') ++ right ++ "\n")

/-- The help text of the command of the given name. -/
def help (command : String) : String :=
  "Partition a classpath into container, plugin and application tiers\n\n" ++
    "Usage: " ++ command ++ " [OPTIONS]\n\nOptions:\n" ++ columns helpRows

end TierIsolation.CommandLine
