import TierIsolation.Document.Artifact
import TierIsolation.Tiers

/-!
# Tiers as documents
-/

namespace TierIsolation

def EntrySet.toDocument (s : EntrySet) : Document := .list (s.toList.map Entry.toDocument)

def PluginTier.toDocument (p : PluginTier) : Document :=
  .object [("name", .text p.name), ("entries", EntrySet.toDocument p.entries)]

/-- Tiers as a record; the artifact under test is given by its coordinates. -/
def Tiers.toDocument (t : Tiers) : Document :=
  .object [
    ("artifact_under_test", .text t.artifactUnderTest.text),
    ("container", EntrySet.toDocument t.container),
    ("plugins", .list (t.plugins.map PluginTier.toDocument)),
    ("application", EntrySet.toDocument t.application)]

end TierIsolation
