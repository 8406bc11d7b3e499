import SqlConsole.Session
import SqlConsole.Settings.Document
import SqlConsole.Value.OfJson
import SqlConsole.Proofs.Statement.Lexeme
import SqlConsole.Proofs.Statement.Pieces
import SqlConsole.Proofs.Statement.Trimming
import SqlConsole.Proofs.Statement.Cutting
import SqlConsole.Proofs.Statement.Rejoining
import SqlConsole.Proofs.Statement.Ending
import SqlConsole.Proofs.Statement.Lines
import SqlConsole.Proofs.Batch.Step
import SqlConsole.Proofs.Batch.Consumer
import SqlConsole.Proofs.Batch.Drain
import SqlConsole.Proofs.Batch.Safety
import SqlConsole.Proofs.Dump.Query
import SqlConsole.Proofs.Dump.Script
import SqlConsole.Proofs.Dump.Literal
import SqlConsole.Proofs.Dump.Insertion
import SqlConsole.Proofs.Dump.Answers
import SqlConsole.Proofs.Dump.Definition
import SqlConsole.Proofs.Dump.Replay
import SqlConsole.Proofs.Dump.Schema
import SqlConsole.Proofs.Statement.NormalForm
import SqlConsole.Proofs.Statement.Shell
import SqlConsole.Proofs.Dump.Order
import SqlConsole.Proofs.Batch.Cancel
import SqlConsole.Proofs.Batch.Interruption
import SqlConsole.Proofs.Session.Fading
import SqlConsole.Proofs.Batch.Handout
import SqlConsole.Proofs.Dump.Handout
import SqlConsole.Proofs.Session.Streaming
import SqlConsole.Proofs.Batch.Printing
import SqlConsole.Proofs.Dump.Use
import SqlConsole.Proofs.Batch.Extent
import SqlConsole.Proofs.Output.Course
import SqlConsole.Proofs.Dump.Extent
import SqlConsole.Proofs.Output.Limits
import SqlConsole.Proofs.Dump.Moments
import SqlConsole.Proofs.Dump.Failure
import SqlConsole.Proofs.Session.Courses
import SqlConsole.Proofs.Batch.Progress
import SqlConsole.Proofs.Session.Progress
import SqlConsole.Proofs.Session.Cancellation
import SqlConsole.Proofs.Statement.Completeness
import SqlConsole.Proofs.Statement.Bytes
import SqlConsole.Proofs.Statement.Tiling
import SqlConsole.Proofs.Batch.Skipping
import SqlConsole.Proofs.Output.Contribution
import SqlConsole.Proofs.Batch.Collecting
import SqlConsole.Proofs.Statement.Growth
import SqlConsole.Proofs.Statement.Atomicity
import SqlConsole.Proofs.Statement.LetterCase
import SqlConsole.Proofs.Text.Utf8
import SqlConsole.Proofs.Storage.Literal
import SqlConsole.Proofs.Storage.Queries
import SqlConsole.Proofs.Catalog.Confinement
import SqlConsole.Proofs.Catalog.Reading
import SqlConsole.Proofs.Output.Drawing
import SqlConsole.Proofs.Output.CsvReader
import SqlConsole.Proofs.Output.JsonReader
import SqlConsole.Proofs.Output.Alignment
import SqlConsole.Proofs.Identifier.Quoting
import SqlConsole.Proofs.Number.Digits
import SqlConsole.Proofs.Value.Timestamp
import SqlConsole.Proofs.Number.Rounding
import SqlConsole.Proofs.Value.Base64
import SqlConsole.Proofs.Json.Numeral
import SqlConsole.Proofs.Value.Integer
