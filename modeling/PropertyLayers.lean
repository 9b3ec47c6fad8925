import PropertyLayers.CommandLine.Command
import PropertyLayers.CommandLine.Json
import PropertyLayers.CommandLine.Options
import PropertyLayers.CommandLine.Report
import PropertyLayers.CommandLine.Run
import PropertyLayers.CommandLine.Target
import PropertyLayers.Configuration.Layer
import PropertyLayers.Configuration.Resolve
import PropertyLayers.Configuration.Settings
import PropertyLayers.Declaration.Attachment
import PropertyLayers.Declaration.Basic
import PropertyLayers.Declaration.Fold
import PropertyLayers.Declaration.Merge
import PropertyLayers.Declaration.Merged
import PropertyLayers.Declaration.Record
import PropertyLayers.Environment.Application
import PropertyLayers.Environment.Basic
import PropertyLayers.Environment.Effective
import PropertyLayers.Environment.Shared
import PropertyLayers.Failure
import PropertyLayers.Files.Path
import PropertyLayers.Files.Tree
import PropertyLayers.Hierarchy.Basic
import PropertyLayers.Hierarchy.Catalog
import PropertyLayers.Hierarchy.Linearization
import PropertyLayers.Keyed
import PropertyLayers.Location.Canonical
import PropertyLayers.Location.Scheme
import PropertyLayers.Main
import PropertyLayers.Moment
import PropertyLayers.Number.Binary64
import PropertyLayers.Number.Decimal
import PropertyLayers.Number.Shortest
import PropertyLayers.Placeholder.Expansion
import PropertyLayers.Placeholder.Syntax
import PropertyLayers.Proofs.CommandLine.Ending
import PropertyLayers.Proofs.Configuration.Anchored
import PropertyLayers.Proofs.Configuration.Layered
import PropertyLayers.Proofs.Configuration.Layers
import PropertyLayers.Proofs.Configuration.Nearest
import PropertyLayers.Proofs.Configuration.Refused
import PropertyLayers.Proofs.Declaration.Agreement
import PropertyLayers.Proofs.Declaration.Collected
import PropertyLayers.Proofs.Declaration.Default
import PropertyLayers.Proofs.Declaration.Folding
import PropertyLayers.Proofs.Declaration.Holding
import PropertyLayers.Proofs.Declaration.Levels
import PropertyLayers.Proofs.Declaration.Merging
import PropertyLayers.Proofs.Declaration.Order
import PropertyLayers.Proofs.Declaration.Raised
import PropertyLayers.Proofs.Declaration.Rank
import PropertyLayers.Proofs.Declaration.Rearrangement
import PropertyLayers.Proofs.Environment.Accumulated
import PropertyLayers.Proofs.Environment.Apart
import PropertyLayers.Proofs.Environment.Distinct
import PropertyLayers.Proofs.Environment.Failed
import PropertyLayers.Proofs.Environment.Held
import PropertyLayers.Proofs.Environment.Inlined
import PropertyLayers.Proofs.Environment.Loads
import PropertyLayers.Proofs.Environment.Located
import PropertyLayers.Proofs.Environment.Lookup
import PropertyLayers.Proofs.Environment.Reordered
import PropertyLayers.Proofs.Environment.Resolution
import PropertyLayers.Proofs.Environment.Run
import PropertyLayers.Proofs.Environment.Shared
import PropertyLayers.Proofs.Environment.Sources
import PropertyLayers.Proofs.Environment.Staged
import PropertyLayers.Proofs.Files.Normal
import PropertyLayers.Proofs.Files.Resolved
import PropertyLayers.Proofs.Files.Walk
import PropertyLayers.Proofs.Hierarchy.Attached
import PropertyLayers.Proofs.Hierarchy.Composed
import PropertyLayers.Proofs.Hierarchy.Levels
import PropertyLayers.Proofs.Hierarchy.Linearized
import PropertyLayers.Proofs.Hierarchy.SingleBase
import PropertyLayers.Proofs.Keyed
import PropertyLayers.Proofs.Location.Canonical
import PropertyLayers.Proofs.Location.Default
import PropertyLayers.Proofs.Location.Rooted
import PropertyLayers.Proofs.Placeholder.Form
import PropertyLayers.Proofs.Placeholder.Leaves
import PropertyLayers.Proofs.Placeholder.Lenient
import PropertyLayers.Proofs.Placeholder.Reachable
import PropertyLayers.Proofs.Placeholder.Stretches
import PropertyLayers.Proofs.Placeholder.Unchecked
import PropertyLayers.Proofs.Precedence
import PropertyLayers.Proofs.Properties.Accepted
import PropertyLayers.Proofs.Properties.Concatenation
import PropertyLayers.Proofs.Properties.Decoding
import PropertyLayers.Proofs.Properties.Grammar
import PropertyLayers.Proofs.Properties.Inline
import PropertyLayers.Proofs.Properties.Joining
import PropertyLayers.Proofs.Properties.Opening
import PropertyLayers.Proofs.Properties.Paired
import PropertyLayers.Proofs.Properties.Token
import PropertyLayers.Proofs.Properties.Units
import PropertyLayers.Proofs.Properties.Written
import PropertyLayers.Proofs.PropertyMap
import PropertyLayers.Proofs.Record.Accepted
import PropertyLayers.Proofs.Record.Faults
import PropertyLayers.Proofs.Resource.Answers
import PropertyLayers.Proofs.Resource.Foreign
import PropertyLayers.Proofs.Resource.Imported
import PropertyLayers.Proofs.Resource.Sourced
import PropertyLayers.Proofs.Sorted
import PropertyLayers.Proofs.Toml.Distinct
import PropertyLayers.Proofs.Toml.Leaves
import PropertyLayers.Properties.Document
import PropertyLayers.Properties.Entry
import PropertyLayers.Properties.Escape
import PropertyLayers.Properties.Inline
import PropertyLayers.Properties.Line
import PropertyLayers.PropertyMap
import PropertyLayers.Record.Check
import PropertyLayers.Record.Scalar
import PropertyLayers.Resource.ClassPath
import PropertyLayers.Resource.Codec
import PropertyLayers.Resource.Encoding
import PropertyLayers.Resource.Load
import PropertyLayers.Resource.Loader
import PropertyLayers.Resource.Module
import PropertyLayers.TestClass
import PropertyLayers.Text.Basic
import PropertyLayers.Text.Blank
import PropertyLayers.Text.Boundaries
import PropertyLayers.Text.Identifier
import PropertyLayers.Text.Printable
import PropertyLayers.Text.Quoted
import PropertyLayers.Toml.Document
import PropertyLayers.Toml.Flat
import PropertyLayers.Toml.Namespace
import PropertyLayers.Toml.Quotation
import PropertyLayers.Toml.Reader
import PropertyLayers.Toml.Scalar
import PropertyLayers.Value
