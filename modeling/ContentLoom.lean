import ContentLoom.Artifact
import ContentLoom.Cancellation
import ContentLoom.Classifier
import ContentLoom.Code.Literal
import ContentLoom.Code.Writing
import ContentLoom.Command.Actions
import ContentLoom.Command.Arguments
import ContentLoom.Command.Failure
import ContentLoom.Command.Invocation
import ContentLoom.Command.LogFilter
import ContentLoom.Command.Output
import ContentLoom.Command.Program
import ContentLoom.Content.Document
import ContentLoom.Content.Site
import ContentLoom.Content.Store
import ContentLoom.Content.Value
import ContentLoom.ContentClass
import ContentLoom.Conversion
import ContentLoom.Declaration.Basic
import ContentLoom.Declaration.Document
import ContentLoom.Diagnostic
import ContentLoom.Dictionary
import ContentLoom.Digest.Block
import ContentLoom.Digest.Sha1
import ContentLoom.Digest.Sha256
import ContentLoom.Entries
import ContentLoom.Failure
import ContentLoom.Files.Disk
import ContentLoom.Files.Folder
import ContentLoom.Files.Host
import ContentLoom.Files.Path
import ContentLoom.Generated.All
import ContentLoom.Generated.BaseModels
import ContentLoom.Generated.Contracts
import ContentLoom.Generated.DefaultConverters
import ContentLoom.Generated.Layout
import ContentLoom.Generated.MarkerClasses
import ContentLoom.Generated.ModelClass
import ContentLoom.Generated.PipelineBases
import ContentLoom.Generated.Registrations
import ContentLoom.Generated.Serializers
import ContentLoom.Generated.ServiceClasses
import ContentLoom.Generated.StepClass
import ContentLoom.Generated.Values
import ContentLoom.Generation
import ContentLoom.Graph.Basic
import ContentLoom.Graph.Hierarchy
import ContentLoom.Graph.NameIndex
import ContentLoom.Graph.Source
import ContentLoom.Identifier
import ContentLoom.Json.Basic
import ContentLoom.Json.Decode
import ContentLoom.Json.Document
import ContentLoom.Json.Numeral
import ContentLoom.Json.Printer
import ContentLoom.Json.Reader
import ContentLoom.LockFile
import ContentLoom.Main
import ContentLoom.Manifest
import ContentLoom.Markers
import ContentLoom.Model.CamelCase
import ContentLoom.Model.Document
import ContentLoom.Model.Value
import ContentLoom.Naming.Claim
import ContentLoom.Naming.Files
import ContentLoom.Naming.Members
import ContentLoom.Naming.Words
import ContentLoom.Number.Binary64
import ContentLoom.Number.Shortest
import ContentLoom.Options
import ContentLoom.Pattern.Escape
import ContentLoom.Pattern.Grammar
import ContentLoom.Pattern.Set
import ContentLoom.Pipeline.Failure
import ContentLoom.Pipeline.Known
import ContentLoom.Pipeline.Mapping
import ContentLoom.Pipeline.Registry
import ContentLoom.Pipeline.Service
import ContentLoom.Pipeline.Step
import ContentLoom.Proofs.AreaItems
import ContentLoom.Proofs.ArtifactNames
import ContentLoom.Proofs.BaseChains
import ContentLoom.Proofs.BaseWalks
import ContentLoom.Proofs.ChildNames
import ContentLoom.Proofs.ClaimedNames
import ContentLoom.Proofs.ClassOrder
import ContentLoom.Proofs.ClassRoster
import ContentLoom.Proofs.ClassText
import ContentLoom.Proofs.ClassifiedProperties
import ContentLoom.Proofs.CodeLevels
import ContentLoom.Proofs.Collisions
import ContentLoom.Proofs.ComposedReferences
import ContentLoom.Proofs.ComposedServices
import ContentLoom.Proofs.ContentText
import ContentLoom.Proofs.ConverterContracts
import ContentLoom.Proofs.ConverterNames
import ContentLoom.Proofs.DeclarationOrder
import ContentLoom.Proofs.DecodedValues
import ContentLoom.Proofs.DeeperLimits
import ContentLoom.Proofs.DiskPlaces
import ContentLoom.Proofs.DiskRuns
import ContentLoom.Proofs.Dispatch
import ContentLoom.Proofs.DistinctTypes
import ContentLoom.Proofs.EnclosingScopes
import ContentLoom.Proofs.ExposedValues
import ContentLoom.Proofs.FilledModels
import ContentLoom.Proofs.FlattenedProperties
import ContentLoom.Proofs.FolderActions
import ContentLoom.Proofs.FolderDrift
import ContentLoom.Proofs.FolderRuns
import ContentLoom.Proofs.FreeNames
import ContentLoom.Proofs.GeneratedFiles
import ContentLoom.Proofs.GeneratedTypes
import ContentLoom.Proofs.GraphText
import ContentLoom.Proofs.GroupNames
import ContentLoom.Proofs.GroupNamespaces
import ContentLoom.Proofs.InterfaceSearch
import ContentLoom.Proofs.JsonText
import ContentLoom.Proofs.LastMarkers
import ContentLoom.Proofs.LineEnds
import ContentLoom.Proofs.LinkTargets
import ContentLoom.Proofs.LiteralText
import ContentLoom.Proofs.LockText
import ContentLoom.Proofs.Lookups
import ContentLoom.Proofs.Loops
import ContentLoom.Proofs.LoweredCapitals
import ContentLoom.Proofs.ManifestPaths
import ContentLoom.Proofs.MappedProperties
import ContentLoom.Proofs.ModelMembers
import ContentLoom.Proofs.NamePlaces
import ContentLoom.Proofs.NestedRuns
import ContentLoom.Proofs.OutputFolder
import ContentLoom.Proofs.OwnFileNames
import ContentLoom.Proofs.PropertyChanges
import ContentLoom.Proofs.QualifiedNames
import ContentLoom.Proofs.QuotedLines
import ContentLoom.Proofs.QuotedTexts
import ContentLoom.Proofs.ReadBack
import ContentLoom.Proofs.RecordText
import ContentLoom.Proofs.RecordedNames
import ContentLoom.Proofs.RefusedReferences
import ContentLoom.Proofs.RemovedFiles
import ContentLoom.Proofs.ReportCodes
import ContentLoom.Proofs.ResolutionActs
import ContentLoom.Proofs.ResolvedProperties
import ContentLoom.Proofs.RunsInTurn
import ContentLoom.Proofs.SharedFileNames
import ContentLoom.Proofs.StandardServices
import ContentLoom.Proofs.StepFields
import ContentLoom.Proofs.StepOrder
import ContentLoom.Proofs.StepResults
import ContentLoom.Proofs.StoppedRuns
import ContentLoom.Proofs.TagDispatch
import ContentLoom.Proofs.TypeGrammar
import ContentLoom.Proofs.TypeScan
import ContentLoom.Proofs.TypeText
import ContentLoom.Proofs.UnmarkedAttributes
import ContentLoom.Proofs.Watched
import ContentLoom.Proofs.WrittenIdentifiers
import ContentLoom.Resolution
import ContentLoom.Text.Alphabetic
import ContentLoom.Text.Blank
import ContentLoom.Text.Case
import ContentLoom.Text.Numeric
import ContentLoom.Text.Ranges
import ContentLoom.Text.Segments
import ContentLoom.Toml.Reader
import ContentLoom.Toml.Scalar
import ContentLoom.Toml.Table
import ContentLoom.Toml.Text
import ContentLoom.TypeRef.Basic
import ContentLoom.TypeRef.Parser
