import TierIsolation.Configuration.Validation
import TierIsolation.EntryLookup
import TierIsolation.Graph.Text
import TierIsolation.ResolutionFault

/-!
# Failures

A failure ends a classification, the construction of resolvers or a run, and says what caused it.
-/

namespace TierIsolation

/-- Why a classification or a run ended early. -/
inductive Failure
  /-- A line of a dependency graph is not well formed. -/
  | malformedLine (fault : LineFault)
  | noArtifactUnderTest
  /-- An artifact or extension has no entry. -/
  | notLocated (fault : LocationFault)
  | configuration (fault : ConfigurationFault)
  | unreadable (fault : FileFault)
  | resolution (fault : ResolutionFault)

namespace Failure

def message : Failure → String
  | malformedLine fault =>
    "Parse error at line " ++ toString fault.number ++ ": '" ++ fault.line ++ "' (" ++
      fault.fault.reason ++ ")"
  | noArtifactUnderTest =>
    "No compile scope artifact found in dependency graph, cannot select the artifact under test"
  | notLocated fault =>
    "Cannot locate artifact '" ++ fault.subject ++ "' on the classpath: " ++ fault.attempted
  | configuration fault => "Configuration error: " ++ fault.message
  | unreadable fault => "IO error: " ++ fault.message
  | resolution fault => fault.message

def inspect : Failure → String
  | malformedLine fault =>
    Inspection.record "Parse"
      [("line_number", toString fault.number), ("line", Inspection.quoted fault.line),
       ("reason", Inspection.quoted fault.fault.reason)]
  | noArtifactUnderTest => "NoCompileRoot"
  | notLocated fault =>
    Inspection.record "ArtifactResolution"
      [("artifact", Inspection.quoted fault.subject),
       ("attempted", Inspection.quoted fault.attempted)]
  | configuration fault => Inspection.tagged "Config" [fault.inspect]
  | unreadable fault => Inspection.tagged "Io" [fault.inspect]
  | resolution (.notFound name resolver) =>
    Inspection.record "SymbolNotFound"
      [("name", Inspection.quoted name), ("resolver", Inspection.quoted resolver)]
  | resolution (.entryFailed location resolver reason) =>
    Inspection.record "Entry"
      [("entry", Inspection.quoted location), ("resolver", Inspection.quoted resolver),
       ("message", Inspection.quoted reason)]
  | resolution (.released resolver) =>
    Inspection.tagged "Released" [Inspection.quoted resolver]

end Failure

end TierIsolation
