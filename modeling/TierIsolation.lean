import TierIsolation.Archive
import TierIsolation.Archive.Checksum
import TierIsolation.Archive.CodePage
import TierIsolation.Archive.Inflate
import TierIsolation.Archive.Tar
import TierIsolation.Archive.Zip
import TierIsolation.Artifact
import TierIsolation.Chain
import TierIsolation.Classification
import TierIsolation.CommandLine
import TierIsolation.CommandLine.Options
import TierIsolation.Configuration
import TierIsolation.Configuration.File
import TierIsolation.Configuration.Validation
import TierIsolation.CoordinatePattern
import TierIsolation.Coordinates
import TierIsolation.Document
import TierIsolation.Document.Artifact
import TierIsolation.Document.Configuration
import TierIsolation.Document.Format
import TierIsolation.Document.Json
import TierIsolation.Document.Tiers
import TierIsolation.Entry
import TierIsolation.EntryLookup
import TierIsolation.Failure
import TierIsolation.FileSystem
import TierIsolation.Forest
import TierIsolation.Forest.Inspection
import TierIsolation.Forest.Resolution
import TierIsolation.Forest.State
import TierIsolation.Graph
import TierIsolation.Graph.Closure
import TierIsolation.Graph.File
import TierIsolation.Graph.Text
import TierIsolation.Harness
import TierIsolation.LookupPolicy
import TierIsolation.Main
import TierIsolation.ModuleFolders
import TierIsolation.Opener
import TierIsolation.Opener.Archives
import TierIsolation.Opener.Disk
import TierIsolation.Opener.Memory
import TierIsolation.Opener.Scripted
import TierIsolation.Opener.Session
import TierIsolation.Ordered
import TierIsolation.Path
import TierIsolation.Proofs.ArchiveEntries
import TierIsolation.Proofs.Chain.Isolation
import TierIsolation.Proofs.Chain.ReleasedHost
import TierIsolation.Proofs.Chain.Teardown
import TierIsolation.Proofs.Chain.TierModes
import TierIsolation.Proofs.Chain.TierNames
import TierIsolation.Proofs.Classification.Claims
import TierIsolation.Proofs.Classification.Collections
import TierIsolation.Proofs.Classification.DeclarationOrder
import TierIsolation.Proofs.Classification.ExtensionOrder
import TierIsolation.Proofs.Classification.Needs
import TierIsolation.Proofs.Classification.Partition
import TierIsolation.Proofs.Classification.Precedence
import TierIsolation.Proofs.Classification.Provided
import TierIsolation.Proofs.Classification.TestArtifacts
import TierIsolation.Proofs.Classification.ValidConfiguration
import TierIsolation.Proofs.Configuration.File
import TierIsolation.Proofs.Configuration.Validation
import TierIsolation.Proofs.CoordinateMatcher
import TierIsolation.Proofs.Document.Records
import TierIsolation.Proofs.EntryLocation
import TierIsolation.Proofs.EntryLookup
import TierIsolation.Proofs.FileSystem
import TierIsolation.Proofs.Flight.SingleFlight
import TierIsolation.Proofs.FolderEntries
import TierIsolation.Proofs.Forest.Along
import TierIsolation.Proofs.Forest.Attribution
import TierIsolation.Proofs.Forest.Balance
import TierIsolation.Proofs.Forest.Cells
import TierIsolation.Proofs.Forest.Coherence
import TierIsolation.Proofs.Forest.Failure
import TierIsolation.Proofs.Forest.Faithful
import TierIsolation.Proofs.Forest.Frame
import TierIsolation.Proofs.Forest.Ledger
import TierIsolation.Proofs.Forest.Lineage
import TierIsolation.Proofs.Forest.Locality
import TierIsolation.Proofs.Forest.LookupFrame
import TierIsolation.Proofs.Forest.Openings
import TierIsolation.Proofs.Forest.ReadOnce
import TierIsolation.Proofs.Forest.Remembered
import TierIsolation.Proofs.Forest.Run
import TierIsolation.Proofs.Forest.Transparency
import TierIsolation.Proofs.Graph.Alike
import TierIsolation.Proofs.Graph.Closures
import TierIsolation.Proofs.Graph.Concatenation
import TierIsolation.Proofs.Graph.Cycles
import TierIsolation.Proofs.Graph.Declarations
import TierIsolation.Proofs.Graph.FlatList
import TierIsolation.Proofs.Graph.Preorder
import TierIsolation.Proofs.Graph.WrittenForm
import TierIsolation.Proofs.Harness.Reuse
import TierIsolation.Proofs.Harness.Teardown
import TierIsolation.Proofs.LookupPolicy
import TierIsolation.Proofs.ModuleFolders
import TierIsolation.Proofs.ModuleOutput
import TierIsolation.Proofs.OpenArchives
import TierIsolation.Proofs.RepositoryLayout
import TierIsolation.Proofs.Settlement
import TierIsolation.Proofs.Success
import TierIsolation.ResolutionFault
import TierIsolation.Symbol
import TierIsolation.Text
import TierIsolation.Text.Inspection
import TierIsolation.Text.Shown
import TierIsolation.Text.Utf8
import TierIsolation.Tiers
import TierIsolation.Yaml.Character
import TierIsolation.Yaml.Cursor
import TierIsolation.Yaml.Node
import TierIsolation.Yaml.Node.Format
import TierIsolation.Yaml.Node.Grammar
import TierIsolation.Yaml.Printer
import TierIsolation.Yaml.Scalar
import TierIsolation.Yaml.Token
import TierIsolation.Yaml.Token.Block
import TierIsolation.Yaml.Token.Flow
import TierIsolation.Yaml.Token.Layout
import TierIsolation.Yaml.Token.Tag
