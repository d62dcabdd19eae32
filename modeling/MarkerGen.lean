import MarkerGen.Capability.Scope
import MarkerGen.Capability.Tag
import MarkerGen.Chars.Blank
import MarkerGen.Chars.Case
import MarkerGen.Chars.CaseTable
import MarkerGen.Chars.Search
import MarkerGen.Chars.Utf8
import MarkerGen.CommandLine
import MarkerGen.Declaration
import MarkerGen.Digest
import MarkerGen.Distinct
import MarkerGen.Enum.Generate
import MarkerGen.Enum.Render
import MarkerGen.Enum.Table
import MarkerGen.Enum.Values
import MarkerGen.FileStore
import MarkerGen.Json.Printer
import MarkerGen.Json.Reader
import MarkerGen.Json.Value
import MarkerGen.Main
import MarkerGen.Marker
import MarkerGen.Number
import MarkerGen.Output.Layout
import MarkerGen.Output.Manifest
import MarkerGen.Output.Mode
import MarkerGen.Output.Writer
import MarkerGen.Path
import MarkerGen.Pimpl.Carrier
import MarkerGen.Pimpl.Forwarding
import MarkerGen.Pimpl.Generate
import MarkerGen.Pimpl.Storage
import MarkerGen.Plugin.Builtin
import MarkerGen.Plugin.Descriptor
import MarkerGen.Plugin.Loader
import MarkerGen.Plugin.Registry
import MarkerGen.Program
import MarkerGen.Proofs.Chars.Split
import MarkerGen.Proofs.Chars.Utf8
import MarkerGen.Proofs.FileStore.Changes
import MarkerGen.Proofs.FileStore.Spots
import MarkerGen.Proofs.FileStore.Trails
import MarkerGen.Proofs.Json.RoundTrip
import MarkerGen.Proofs.Output.AnyOrder
import MarkerGen.Proofs.Output.Collisions
import MarkerGen.Proofs.Output.Confinement
import MarkerGen.Proofs.Output.SavedManifest
import MarkerGen.Proofs.Output.Stale
import MarkerGen.Proofs.Output.Writing
import MarkerGen.Proofs.Path.Components
import MarkerGen.Proofs.Registry.Ambiguity
import MarkerGen.Proofs.Registry.Offers
import MarkerGen.Proofs.Registry.Resolution
import MarkerGen.Proofs.Run.Ending
import MarkerGen.Proofs.Run.Fixpoint
import MarkerGen.Proofs.Run.Idempotence
import MarkerGen.Proofs.Run.OnDisk
import MarkerGen.Proofs.Run.Processing
import MarkerGen.Proofs.Run.Purity
import MarkerGen.Proofs.Run.Tracking
import MarkerGen.Reflect
import MarkerGen.Run.Generator
import MarkerGen.Run.Pipeline
import MarkerGen.Run.Report
import MarkerGen.RunError
import MarkerGen.Scan
import MarkerGen.Settings.Config
import MarkerGen.Settings.Environment
import MarkerGen.Settings.Literal
import MarkerGen.Settings.Toml.Moment
import MarkerGen.Settings.Toml.Reader
import MarkerGen.Settings.Toml.Scalar
import MarkerGen.Settings.Toml.Table
import MarkerGen.Settings.Value
import MarkerGen.SourceTree.AnnotationTokens
import MarkerGen.SourceTree.Listing
import MarkerGen.SourceTree.Node
import MarkerGen.SourceTree.Outline
import MarkerGen.SourceTree.Parse
import MarkerGen.SourceTree.QualifiedName
import MarkerGen.SourceTree.Reading
import MarkerGen.SourceTree.Words
import MarkerGen.SourceUnit
import MarkerGen.Strategy
import MarkerGen.Text
import MarkerGen.Text.Literal
import MarkerGen.Verbosity
import MarkerGen.Proofs.Chars.Ends
import MarkerGen.Proofs.Marker.Grammar
import MarkerGen.Proofs.Marker.RoundTrip
import MarkerGen.Proofs.Run.Isolation
import MarkerGen.Proofs.Run.OwnSources
import MarkerGen.Proofs.Run.Changed
import MarkerGen.Proofs.Registry.LoadOrder
import MarkerGen.Proofs.SourceUnit.Children
import MarkerGen.Proofs.Enum.Overflow
import MarkerGen.Proofs.Run.Breakdowns
import MarkerGen.Proofs.SourceTree.Names
import MarkerGen.Proofs.SourceTree.Forest
import MarkerGen.Proofs.Registry.Priorities
import MarkerGen.Proofs.Run.Failures
import MarkerGen.Proofs.Program.StartUp
import MarkerGen.Proofs.Output.DerivedNames
import MarkerGen.Proofs.Run.Separation
import MarkerGen.Proofs.SourceTree.Spellings
import MarkerGen.Proofs.Run.History
import MarkerGen.Proofs.SourceTree.Slices
import MarkerGen.Proofs.SourceTree.LeadingComments
import MarkerGen.Proofs.Chars.Digits
import MarkerGen.Proofs.Enum.Literals
import MarkerGen.Proofs.Enum.LiteralReading
import MarkerGen.Proofs.Enum.KnownValues
import MarkerGen.Proofs.Distinct
import MarkerGen.Proofs.Scan.FirstOfTag
import MarkerGen.Proofs.Output.Grouping
import MarkerGen.Proofs.Marker.Division
import MarkerGen.Proofs.Marker.Quoting
import MarkerGen.Proofs.SourceTree.Parents
import MarkerGen.Proofs.SourceTree.MemberAccess
import MarkerGen.Proofs.SourceTree.Faults
import MarkerGen.Proofs.SourceTree.Namespaces
import MarkerGen.Proofs.Enum.Rendering
import MarkerGen.Proofs.Enum.Conversions
import MarkerGen.Proofs.Run.FirstFatal
import MarkerGen.Proofs.Registry.Listing
import MarkerGen.Proofs.SourceTree.AttributeText
import MarkerGen.Proofs.SourceTree.RecordLookup
import MarkerGen.Proofs.Marker.Leads
import MarkerGen.Proofs.SourceTree.NameSegments
import MarkerGen.Proofs.Pimpl.Forwarding
import MarkerGen.Proofs.Pimpl.Listing
import MarkerGen.Proofs.Chars.Ascii
import MarkerGen.Proofs.Chars.Words
import MarkerGen.Proofs.SourceTree.WholeWords
import MarkerGen.Proofs.Settings.VariableNames
import MarkerGen.Proofs.Run.Schedules
