import LayoutWatch.Access
import LayoutWatch.Binary
import LayoutWatch.Binary64.Basic
import LayoutWatch.Binary64.Decimal
import LayoutWatch.Binary64.Reading
import LayoutWatch.Bytes
import LayoutWatch.Codec.Comparison
import LayoutWatch.Codec.Image
import LayoutWatch.Codec.Layout
import LayoutWatch.Codec.Scan
import LayoutWatch.Codec.Signature
import LayoutWatch.Codec.Verification
import LayoutWatch.Command.Extracting
import LayoutWatch.Command.Failure
import LayoutWatch.Command.Inspection
import LayoutWatch.Command.Invocation
import LayoutWatch.Command.Judging
import LayoutWatch.Command.Options
import LayoutWatch.Command.Registration
import LayoutWatch.Command.Scanning
import LayoutWatch.Command.Setup
import LayoutWatch.Command.Sources
import LayoutWatch.Command.Workspace
import LayoutWatch.Comparison
import LayoutWatch.Digest
import LayoutWatch.Extraction
import LayoutWatch.Files.Path
import LayoutWatch.Files.System
import LayoutWatch.Files.Tree
import LayoutWatch.Image
import LayoutWatch.Image.Headers
import LayoutWatch.Json.Lexeme
import LayoutWatch.Json.Parser
import LayoutWatch.Json.Printer
import LayoutWatch.Layout
import LayoutWatch.Main
import LayoutWatch.Ordered
import LayoutWatch.Pattern.Basic
import LayoutWatch.Pattern.Search
import LayoutWatch.Project.Folders
import LayoutWatch.Project.Registry
import LayoutWatch.Project.Settings
import LayoutWatch.Proofs.Access
import LayoutWatch.Proofs.AccessRanking
import LayoutWatch.Proofs.AccessSearch
import LayoutWatch.Proofs.AddressTranslation
import LayoutWatch.Proofs.BaseWalk
import LayoutWatch.Proofs.Binary64.Nearest
import LayoutWatch.Proofs.Binary64.Reading
import LayoutWatch.Proofs.BulkShift
import LayoutWatch.Proofs.Bytes
import LayoutWatch.Proofs.CodeImage
import LayoutWatch.Proofs.Codec.Scan
import LayoutWatch.Proofs.Codec.Settings
import LayoutWatch.Proofs.Codec.Signature
import LayoutWatch.Proofs.Command.Effects
import LayoutWatch.Proofs.Command.Reading
import LayoutWatch.Proofs.Command.SignatureFolder
import LayoutWatch.Proofs.Command.Work
import LayoutWatch.Proofs.Command.Workspace
import LayoutWatch.Proofs.Comparison
import LayoutWatch.Proofs.ContextBytes
import LayoutWatch.Proofs.ContextSearch
import LayoutWatch.Proofs.Delta
import LayoutWatch.Proofs.DeltaLabel
import LayoutWatch.Proofs.DistinctSites
import LayoutWatch.Proofs.EarliestSite
import LayoutWatch.Proofs.Evidence
import LayoutWatch.Proofs.EvidenceOrder
import LayoutWatch.Proofs.Extraction
import LayoutWatch.Proofs.ExtractionTally
import LayoutWatch.Proofs.FamilyIsolation
import LayoutWatch.Proofs.FieldReduction
import LayoutWatch.Proofs.FieldStory
import LayoutWatch.Proofs.Files.Location
import LayoutWatch.Proofs.Files.Path
import LayoutWatch.Proofs.Files.ProjectFiles
import LayoutWatch.Proofs.Files.RelativePath
import LayoutWatch.Proofs.Files.Tree
import LayoutWatch.Proofs.Files.Writing
import LayoutWatch.Proofs.Findings
import LayoutWatch.Proofs.ImageHeaders
import LayoutWatch.Proofs.Json.Decimal
import LayoutWatch.Proofs.Json.Lexeme
import LayoutWatch.Proofs.Json.Numeral
import LayoutWatch.Proofs.Json.Parser
import LayoutWatch.Proofs.Json.Record
import LayoutWatch.Proofs.MajorityVote
import LayoutWatch.Proofs.MalformedSignature
import LayoutWatch.Proofs.NewProject
import LayoutWatch.Proofs.Offset
import LayoutWatch.Proofs.OffsetChange
import LayoutWatch.Proofs.Ordered
import LayoutWatch.Proofs.Outcome
import LayoutWatch.Proofs.Pattern.CheckedSearch
import LayoutWatch.Proofs.Pattern.Displacement
import LayoutWatch.Proofs.Pattern.Grammar
import LayoutWatch.Proofs.Pattern.NormalText
import LayoutWatch.Proofs.Pattern.Search
import LayoutWatch.Proofs.Pattern.Stored
import LayoutWatch.Proofs.Pattern.Text
import LayoutWatch.Proofs.Rebuild
import LayoutWatch.Proofs.RecordedSite
import LayoutWatch.Proofs.RegistryHistory
import LayoutWatch.Proofs.RegistryVersion
import LayoutWatch.Proofs.SampleGroups
import LayoutWatch.Proofs.SavedFiles
import LayoutWatch.Proofs.Scan
import LayoutWatch.Proofs.ScanKeeping
import LayoutWatch.Proofs.ScanVerification
import LayoutWatch.Proofs.Score
import LayoutWatch.Proofs.SearchSites
import LayoutWatch.Proofs.SelfComparison
import LayoutWatch.Proofs.SelfScan
import LayoutWatch.Proofs.SharedShift
import LayoutWatch.Proofs.Shift
import LayoutWatch.Proofs.ShiftGroup
import LayoutWatch.Proofs.Sighting
import LayoutWatch.Proofs.SightingMeaning
import LayoutWatch.Proofs.SignatureFiles
import LayoutWatch.Proofs.StricterExtraction
import LayoutWatch.Proofs.TypeName
import LayoutWatch.Proofs.UnchangedComparison
import LayoutWatch.Proofs.Verification
import LayoutWatch.Proofs.VerificationBalance
import LayoutWatch.Scan
import LayoutWatch.Shift
import LayoutWatch.Signature
import LayoutWatch.Text.Blank
import LayoutWatch.Text.Faceless
import LayoutWatch.Text.Numeral
import LayoutWatch.Text.Quoted
import LayoutWatch.Tree
import LayoutWatch.Verification
import LayoutWatch.Yaml.Document
import LayoutWatch.Yaml.Folding
import LayoutWatch.Yaml.Scalar
import LayoutWatch.Yaml.Token
