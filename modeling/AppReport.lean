import AppReport.Command.ErrorLine
import AppReport.Command.Help
import AppReport.Command.Options
import AppReport.Command.Run
import AppReport.Describe
import AppReport.Description
import AppReport.Directory.Address
import AppReport.Directory.Client
import AppReport.Directory.Host
import AppReport.Directory.Percent
import AppReport.Directory.Punycode
import AppReport.Directory.Reference
import AppReport.Directory.Transport
import AppReport.Failure
import AppReport.Files.Content
import AppReport.Files.Path
import AppReport.Files.Tree
import AppReport.Gather
import AppReport.Json.Reader
import AppReport.Json.Writer
import AppReport.Log.Block
import AppReport.Log.Record
import AppReport.Log.Registry
import AppReport.Main
import AppReport.Number.Binary64
import AppReport.Number.Decimal
import AppReport.Number.Literal
import AppReport.Number.Places
import AppReport.Number.Shortest
import AppReport.Pipeline
import AppReport.Proofs.Acceptance
import AppReport.Proofs.Alignment
import AppReport.Proofs.Blocks
import AppReport.Proofs.CauseChain
import AppReport.Proofs.Columns
import AppReport.Proofs.CommandEnding
import AppReport.Proofs.Connecting
import AppReport.Proofs.Containment
import AppReport.Proofs.Contents
import AppReport.Proofs.ContextLines
import AppReport.Proofs.Course
import AppReport.Proofs.Decoding
import AppReport.Proofs.Describable
import AppReport.Proofs.Directives
import AppReport.Proofs.Effects
import AppReport.Proofs.Fallback
import AppReport.Proofs.Filling
import AppReport.Proofs.Gather
import AppReport.Proofs.Grounds
import AppReport.Proofs.Growth
import AppReport.Proofs.HiddenColumns
import AppReport.Proofs.HumanReport
import AppReport.Proofs.LineEnds
import AppReport.Proofs.Listings
import AppReport.Proofs.LoggedOnce
import AppReport.Proofs.Lookup
import AppReport.Proofs.NameForm
import AppReport.Proofs.Nearest
import AppReport.Proofs.Numerals
import AppReport.Proofs.OneLine
import AppReport.Proofs.Opening
import AppReport.Proofs.Overflow
import AppReport.Proofs.Overrides
import AppReport.Proofs.Pages
import AppReport.Proofs.Pagination
import AppReport.Proofs.Parents
import AppReport.Proofs.PassThrough
import AppReport.Proofs.PlainLines
import AppReport.Proofs.ReadBack
import AppReport.Proofs.RepeatedLines
import AppReport.Proofs.Roundtrip
import AppReport.Proofs.Selected
import AppReport.Proofs.Spelling
import AppReport.Proofs.StoredReport
import AppReport.Proofs.StoredTables
import AppReport.Proofs.Tags
import AppReport.Proofs.TokenChain
import AppReport.Proofs.Turns
import AppReport.Proofs.Unseen
import AppReport.Proofs.Views
import AppReport.Proofs.Visited
import AppReport.Proofs.WorkspaceName
import AppReport.Proofs.Writability
import AppReport.Record
import AppReport.Report.Columns
import AppReport.Report.Document
import AppReport.Report.Human
import AppReport.Selector
import AppReport.Settings
import AppReport.Show
import AppReport.Snapshot
import AppReport.Store.ConfigStore
import AppReport.Store.Connection
import AppReport.Store.FileFormat
import AppReport.Store.Row
import AppReport.Store.Tables
import AppReport.Surroundings
import AppReport.Text.Blank
import AppReport.Text.Charset
import AppReport.Text.DecimalDigit
import AppReport.Text.Lines
import AppReport.Text.Pieces
import AppReport.Text.Printable
import AppReport.Text.Quoted
import AppReport.Text.Template
import AppReport.Text.Utf8
import AppReport.Validation
import AppReport.Value
import AppReport.Value.Number
import AppReport.Value.Shown
import AppReport.Workspace
import AppReport.World
