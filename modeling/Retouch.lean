import Retouch.Cli.Arguments
import Retouch.Cli.Command
import Retouch.Cli.Help
import Retouch.Cli.Program
import Retouch.Codemod.Basic
import Retouch.Codemod.Context
import Retouch.Codemod.Manifest
import Retouch.Codemod.Registry
import Retouch.Codemod.RenameFunction
import Retouch.Codemod.StringLiterals
import Retouch.Decimal.Binary
import Retouch.Decimal.Shortest
import Retouch.Failure
import Retouch.Files.Access
import Retouch.Files.OsError
import Retouch.Files.Path
import Retouch.Files.Resolve
import Retouch.Files.Store
import Retouch.Layout.Gap
import Retouch.Layout.Print
import Retouch.Main
import Retouch.Proofs.Actions
import Retouch.Proofs.Codemod.Closure
import Retouch.Proofs.Codemod.Determined
import Retouch.Proofs.Codemod.Embedding
import Retouch.Proofs.Codemod.Independence
import Retouch.Proofs.Codemod.Lifecycle
import Retouch.Proofs.Codemod.Literals
import Retouch.Proofs.Codemod.Quoting
import Retouch.Proofs.Codemod.Renaming
import Retouch.Proofs.Codemod.Replacing
import Retouch.Proofs.Files.Effects
import Retouch.Proofs.Files.Following
import Retouch.Proofs.Files.Fresh
import Retouch.Proofs.Files.Growth
import Retouch.Proofs.Files.Joining
import Retouch.Proofs.Files.Leads
import Retouch.Proofs.Files.Spelling
import Retouch.Proofs.Files.WellFormed
import Retouch.Proofs.Layout.Code
import Retouch.Proofs.Layout.Gaps
import Retouch.Proofs.Layout.InPlace
import Retouch.Proofs.Layout.Kept
import Retouch.Proofs.Layout.Rendering
import Retouch.Proofs.Layout.Splicing
import Retouch.Proofs.Layout.Statements
import Retouch.Proofs.Layout.Untouched
import Retouch.Proofs.Layout.Words
import Retouch.Proofs.Run.Attempts
import Retouch.Proofs.Run.Chain
import Retouch.Proofs.Run.Collision
import Retouch.Proofs.Run.Composition
import Retouch.Proofs.Run.DirectoryRun
import Retouch.Proofs.Run.FileRun
import Retouch.Proofs.Run.IgnoreEntries
import Retouch.Proofs.Run.Interruption
import Retouch.Proofs.Run.Itinerary
import Retouch.Proofs.Run.Mirroring
import Retouch.Proofs.Run.Missing
import Retouch.Proofs.Run.Pruning
import Retouch.Proofs.Run.Results
import Retouch.Proofs.Run.RoundTrip
import Retouch.Proofs.Run.Sources
import Retouch.Proofs.Run.Stage
import Retouch.Proofs.Run.Tracing
import Retouch.Proofs.Run.Walk
import Retouch.Proofs.Text.Lines
import Retouch.Proofs.Text.Positions
import Retouch.Proofs.Text.Splice
import Retouch.Proofs.Text.Woven
import Retouch.Proofs.Traversal.Limits
import Retouch.Proofs.Traversal.Observing
import Retouch.Proofs.Traversal.Rewriting
import Retouch.Proofs.Traversal.Stopping
import Retouch.Proofs.Traversal.Watching
import Retouch.Proofs.Tree.Conversion
import Retouch.Proofs.Tree.Editing
import Retouch.Proofs.Tree.Faults
import Retouch.Proofs.Tree.Outlines
import Retouch.Proofs.Tree.Reading
import Retouch.Proofs.Tree.Searching
import Retouch.Report.Error
import Retouch.Report.Journal
import Retouch.Run.Ignore
import Retouch.Run.Listing
import Retouch.Run.Output
import Retouch.Run.Runner
import Retouch.Run.Transformer
import Retouch.Run.World
import Retouch.Script.Codemod
import Retouch.Script.Edit
import Retouch.Script.Spec
import Retouch.Script.Visitor
import Retouch.Text.Blank
import Retouch.Text.CodePoint
import Retouch.Text.Letter
import Retouch.Text.Position
import Retouch.Text.Printable
import Retouch.Text.Quoted
import Retouch.Text.Slice
import Retouch.Toml.Datetime
import Retouch.Toml.Document
import Retouch.Toml.Quoted
import Retouch.Toml.Scalar
import Retouch.Toml.Section
import Retouch.Toml.Value
import Retouch.Traversal.Visitor
import Retouch.Traversal.Walk
import Retouch.Tree.Address
import Retouch.Tree.Concrete
import Retouch.Tree.Json
import Retouch.Tree.Node
import Retouch.Tree.Outline
import Retouch.Tree.Written
