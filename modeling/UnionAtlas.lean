import UnionAtlas.Cli.CommandLine
import UnionAtlas.Cli.Commands
import UnionAtlas.Cli.Job
import UnionAtlas.Cli.Lookups
import UnionAtlas.Cli.Run
import UnionAtlas.Config
import UnionAtlas.Digest.Fnv
import UnionAtlas.Digest.Sha256
import UnionAtlas.Disk
import UnionAtlas.Element
import UnionAtlas.Files.FileSet
import UnionAtlas.Files.Loading
import UnionAtlas.Files.Span
import UnionAtlas.Handle.Codec
import UnionAtlas.Handle.Wire
import UnionAtlas.Identifier
import UnionAtlas.Main
import UnionAtlas.Model
import UnionAtlas.NameTable
import UnionAtlas.Path
import UnionAtlas.Portrait
import UnionAtlas.Proofs.Cache.Freshness
import UnionAtlas.Proofs.Cache.Hiding
import UnionAtlas.Proofs.Cache.Prospects
import UnionAtlas.Proofs.Cache.Run
import UnionAtlas.Proofs.Cache.SingleFlight
import UnionAtlas.Proofs.Cache.Stored
import UnionAtlas.Proofs.Cache.Transparency
import UnionAtlas.Proofs.Cache.Versions
import UnionAtlas.Proofs.Cache.Waiting
import UnionAtlas.Proofs.Cli.Handles
import UnionAtlas.Proofs.Cli.Teardown
import UnionAtlas.Proofs.Discovery
import UnionAtlas.Proofs.Files.CleanPaths
import UnionAtlas.Proofs.Files.Latest
import UnionAtlas.Proofs.Files.LineEnds
import UnionAtlas.Proofs.Files.LoadedText
import UnionAtlas.Proofs.Files.Positions
import UnionAtlas.Proofs.Files.Versions
import UnionAtlas.Proofs.Handle.ForeignMaps
import UnionAtlas.Proofs.Handle.Prompt
import UnionAtlas.Proofs.Handle.RoundTrip
import UnionAtlas.Proofs.Handle.Survival
import UnionAtlas.Proofs.Model.CaseEdits
import UnionAtlas.Proofs.Model.CaseLists
import UnionAtlas.Proofs.Model.Edits
import UnionAtlas.Proofs.Model.Labels
import UnionAtlas.Proofs.Model.Links
import UnionAtlas.Proofs.Model.NameCalls
import UnionAtlas.Proofs.Model.Names
import UnionAtlas.Proofs.Model.TagEquality
import UnionAtlas.Proofs.Model.TagOrdinals
import UnionAtlas.Proofs.Model.TagsClasses
import UnionAtlas.Proofs.Model.TypeNumbers
import UnionAtlas.Proofs.Search
import UnionAtlas.Proofs.Session.Accounts
import UnionAtlas.Proofs.Session.Asks
import UnionAtlas.Proofs.Session.Bystanders
import UnionAtlas.Proofs.Session.Cancellation
import UnionAtlas.Proofs.Session.Changes
import UnionAtlas.Proofs.Session.Events
import UnionAtlas.Proofs.Session.Hiding
import UnionAtlas.Proofs.Session.History
import UnionAtlas.Proofs.Session.Providers
import UnionAtlas.Proofs.Session.Recorded
import UnionAtlas.Proofs.Session.Routing
import UnionAtlas.Proofs.Session.Schedules
import UnionAtlas.Proofs.Session.Telling
import UnionAtlas.Proofs.Session.Tracing
import UnionAtlas.Proofs.Session.Twins
import UnionAtlas.Proofs.Session.WarmUps
import UnionAtlas.Proofs.Symbols.Covering
import UnionAtlas.Proofs.Symbols.NameIndex
import UnionAtlas.Proofs.Symbols.StableOrder
import UnionAtlas.Proofs.Table
import UnionAtlas.Proofs.Text.Characters
import UnionAtlas.Proofs.Text.Numerals
import UnionAtlas.Proofs.Text.Pieces
import UnionAtlas.Proofs.Text.WrittenHex
import UnionAtlas.Proofs.Trace.Emission
import UnionAtlas.Proofs.Trace.JsonLines
import UnionAtlas.Proofs.Trace.Logbook
import UnionAtlas.Proofs.Trace.Recording
import UnionAtlas.Proofs.Universe.Edits
import UnionAtlas.Proofs.Universe.Hashes
import UnionAtlas.Proofs.Universe.TagEquivalence
import UnionAtlas.Proofs.Workspace.Acceptance
import UnionAtlas.Proofs.Workspace.Addresses
import UnionAtlas.Proofs.Workspace.Bindings
import UnionAtlas.Proofs.Workspace.Denotation
import UnionAtlas.Proofs.Workspace.References
import UnionAtlas.Proofs.Workspace.Reordering
import UnionAtlas.Proofs.Workspace.Steps
import UnionAtlas.Proofs.Workspace.Unions
import UnionAtlas.Search
import UnionAtlas.Symbols.Binder
import UnionAtlas.Symbols.Cache
import UnionAtlas.Symbols.FileSymbols
import UnionAtlas.Symbols.Provider
import UnionAtlas.Symbols.Router
import UnionAtlas.Symbols.Session
import UnionAtlas.Table
import UnionAtlas.Text.Blank
import UnionAtlas.Text.Bytes
import UnionAtlas.Text.CellWidth
import UnionAtlas.Text.Cluster
import UnionAtlas.Text.ClusterClass
import UnionAtlas.Text.CodeSet
import UnionAtlas.Text.Decomposition
import UnionAtlas.Text.Hex
import UnionAtlas.Text.JsonText
import UnionAtlas.Text.LowerCase
import UnionAtlas.Text.NormalForm
import UnionAtlas.Text.Printable
import UnionAtlas.Text.Quoted
import UnionAtlas.Text.Utf8
import UnionAtlas.Timing
import UnionAtlas.Toml.Draft
import UnionAtlas.Toml.Key
import UnionAtlas.Toml.Moment
import UnionAtlas.Toml.Parse
import UnionAtlas.Toml.Reader
import UnionAtlas.Toml.Scalar
import UnionAtlas.Toml.Value
import UnionAtlas.Trace.Event
import UnionAtlas.Trace.Level
import UnionAtlas.Trace.Recorder
import UnionAtlas.Trace.Ring
import UnionAtlas.Trace.Stamp
import UnionAtlas.TypeTable
import UnionAtlas.Universe
import UnionAtlas.Workspace.Description
import UnionAtlas.Workspace.Materialise
