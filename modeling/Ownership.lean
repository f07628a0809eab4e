import Ownership.Catalog.Basic
import Ownership.Catalog.Document
import Ownership.Catalog.Read
import Ownership.Codeowners
import Ownership.Command
import Ownership.CommandLine.Arguments
import Ownership.CommandLine.Invocation
import Ownership.CommandLine.Run
import Ownership.Datum
import Ownership.Decimal.Binary64
import Ownership.Decimal.Text
import Ownership.Git
import Ownership.Glob.Basic
import Ownership.Glob.ByteTest
import Ownership.Glob.Reading
import Ownership.Impact
import Ownership.Index
import Ownership.Json.Basic
import Ownership.Json.Printer
import Ownership.Lint
import Ownership.Listing
import Ownership.Location
import Ownership.Main
import Ownership.Pattern.Basic
import Ownership.Pattern.Segment
import Ownership.Proofs.Glob.Affix
import Ownership.Proofs.Glob.Class
import Ownership.Proofs.Glob.Parts
import Ownership.Proofs.Index.LastMatch
import Ownership.Proofs.Lint.Findings
import Ownership.Proofs.Lint.Shadowing
import Ownership.Proofs.Pattern.Compare
import Ownership.Proofs.Text.Bytes
import Ownership.Proofs.Wild.Cut
import Ownership.Proofs.Wild.Forward
import Ownership.Proofs.Wild.Meet
import Ownership.Report.Impact
import Ownership.Report.Lint
import Ownership.Report.Owner
import Ownership.Rules
import Ownership.Settings.Basic
import Ownership.Settings.Merge
import Ownership.Settings.Read
import Ownership.Text.Basic
import Ownership.Text.Lower
import Ownership.Text.Printable
import Ownership.Text.Quoted
import Ownership.Toml.Document
import Ownership.Toml.Number
import Ownership.Toml.Text
import Ownership.Tree
import Ownership.Verbosity
import Ownership.Wild
import Ownership.Workspace
import Ownership.Yaml.Cursor
import Ownership.Yaml.Document
import Ownership.Yaml.Node
import Ownership.Yaml.Printer
import Ownership.Yaml.Scalar
import Ownership.Yaml.Tag
import Ownership.Yaml.Token
import Ownership.Yaml.Value
import Ownership.Proofs.Distinct
import Ownership.Proofs.Impact.Grouping
import Ownership.Proofs.Impact.Partition
import Ownership.Proofs.Pattern.Blocks
import Ownership.Proofs.Index.Agreement
import Ownership.Proofs.Text.Lower
import Ownership.Proofs.Codeowners.Service
import Ownership.Proofs.Rules.Line
import Ownership.Proofs.Codeowners.Conversion
import Ownership.Proofs.Json.Fields
import Ownership.Proofs.Impact.Order
import Ownership.Proofs.Rules.Reading
import Ownership.Proofs.Workspace.Loading
import Ownership.Proofs.Workspace.Changes
import Ownership.Proofs.Except
import Ownership.Proofs.Tree.Places
import Ownership.Proofs.Codeowners.Init
import Ownership.Proofs.Json.Merge
import Ownership.Proofs.Toml.Tables
import Ownership.Proofs.Settings.Tables
import Ownership.Proofs.Settings.Layers
import Ownership.Proofs.Glob.Characters
import Ownership.Proofs.Glob.Collapse
import Ownership.Proofs.Glob.Encoded
import Ownership.Proofs.Sorting
import Ownership.Proofs.Location.Plain
import Ownership.Proofs.Tree.Files
import Ownership.Proofs.Lint.Scans
import Ownership.Proofs.Lint.Options
import Ownership.Proofs.Workspace.Gate
import Ownership.Proofs.Location.Resolved
import Ownership.Proofs.Workspace.Root
import Ownership.Proofs.Rules.Layout
import Ownership.Proofs.Pattern.Spelling
import Ownership.Proofs.Pattern.Root
import Ownership.Proofs.Pattern.Literal
import Ownership.Proofs.Pattern.Directory
import Ownership.Proofs.Rules.Comment
import Ownership.Proofs.Glob.Members
import Ownership.Proofs.Glob.Meaning
import Ownership.Proofs.Glob.CollapsedMeaning
import Ownership.Proofs.Location.Canonical
import Ownership.Proofs.Json.KeyPath
import Ownership.Proofs.Lint.LiveOverlaps
import Ownership.Proofs.Pattern.Order
import Ownership.Proofs.Lint.Repeats
import Ownership.Proofs.Rules.Joined
import Ownership.Proofs.Yaml.Keys
import Ownership.Proofs.Catalog.Entries
import Ownership.Proofs.Text.Infix
import Ownership.Proofs.Datum.Records
import Ownership.Proofs.Impact.Output
import Ownership.Proofs.Impact.Comment
import Ownership.Proofs.Catalog.RoundTrip
import Ownership.Proofs.Catalog.Contacts
