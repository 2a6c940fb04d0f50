import LintWatch.Diagnostic.Codec
import LintWatch.Main
import LintWatch.Proofs.Diagnostic.Store
import LintWatch.Proofs.Server.Run
import LintWatch.Proofs.Server.Freshness
import LintWatch.Proofs.Path.Components
import LintWatch.Proofs.Path.FileUri
import LintWatch.Proofs.Server.Stopping
import LintWatch.Proofs.Server.Workspace
import LintWatch.Proofs.Text.Utf8
import LintWatch.Proofs.Text.Blank
import LintWatch.Proofs.Json.Access
import LintWatch.Proofs.Json.Numeral
import LintWatch.Proofs.Json.Quotation
import LintWatch.Proofs.Json.Canonical
import LintWatch.Proofs.Json.RoundTrip
import LintWatch.Proofs.Frame.Header
import LintWatch.Proofs.Frame.Sequence
import LintWatch.Proofs.Frame.RoundTrip
import LintWatch.Proofs.Frame.Truncation
import LintWatch.Proofs.Frame.BrokenPipe
import LintWatch.Proofs.Server.Incoming
import LintWatch.Proofs.Server.Waiting
import LintWatch.Proofs.Server.Replies
import LintWatch.Proofs.Diagnostic.Snapshot
import LintWatch.Proofs.Json.Record
import LintWatch.Proofs.Server.Announcements
import LintWatch.Proofs.Server.Layers
import LintWatch.Proofs.Server.Documents
import LintWatch.Proofs.Server.Edits
import LintWatch.Proofs.Toml.Gap
import LintWatch.Proofs.Toml.Quoted
import LintWatch.Proofs.Toml.Key
import LintWatch.Proofs.Toml.Scalar
import LintWatch.Proofs.Toml.Value
import LintWatch.Proofs.Toml.Layout
import LintWatch.Proofs.Toml.Fields
import LintWatch.Proofs.Toml.Tidy
import LintWatch.Proofs.Toml.Places
import LintWatch.Proofs.Toml.Statement
import LintWatch.Proofs.Toml.Below
import LintWatch.Proofs.Toml.Rebinds
import LintWatch.Proofs.Toml.Put
import LintWatch.Proofs.Toml.Tables
import LintWatch.Proofs.Toml.Edit
import LintWatch.Proofs.Files.Walk
import LintWatch.Proofs.Files.Replace
import LintWatch.Proofs.Settings.UseNoqa
import LintWatch.Proofs.Settings.Persist
import LintWatch.Proofs.Server.Draining
import LintWatch.Proofs.Host.Errors
import LintWatch.Proofs.Host.Toggle
import LintWatch.Proofs.Settings.ServerValue
import LintWatch.Proofs.Settings.Flags
import LintWatch.Proofs.Host.Missing
import LintWatch.Proofs.Scan.Progress
import LintWatch.Proofs.Scan.Traffic
import LintWatch.Proofs.Scan.Scripts
import LintWatch.Proofs.Scan.Roots
import LintWatch.Proofs.Json.Extension
import LintWatch.Proofs.Scan.CutOutput
import LintWatch.Proofs.Path.UriRoundTrip
import LintWatch.Proofs.Server.Reports
import LintWatch.Proofs.Server.Succession
import LintWatch.Proofs.Toml.Comment
import LintWatch.Proofs.Toml.DocumentComments
import LintWatch.Proofs.Toml.LostComments
import LintWatch.Proofs.Settings.Comments
import LintWatch.Proofs.Scan.SyntaxErrors
import LintWatch.Proofs.Scan.Listing
import LintWatch.Proofs.Diagnostic.Excerpt
import LintWatch.Proofs.Path.Climbing
import LintWatch.Proofs.Server.Coverage
import LintWatch.Proofs.Frame.Block
import LintWatch.Proofs.Server.Effects
import LintWatch.Proofs.Server.Starting
import LintWatch.Proofs.Json.Ordered
import LintWatch.Proofs.Server.DiagnosticCodec
import LintWatch.Proofs.Diagnostic.Display
import LintWatch.Proofs.Diagnostic.Codec
import LintWatch.Proofs.Path.Parent
import LintWatch.Proofs.Server.Directories
import LintWatch.Proofs.Server.Folders
import LintWatch.Proofs.Prompt
import LintWatch.Proofs.Frame.Progress
import LintWatch.Proofs.Files.Above
import LintWatch.Proofs.Files.Course
import LintWatch.Proofs.Scan.NamedRoots
