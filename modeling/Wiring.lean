import Wiring.CommandLine
import Wiring.Decimal.Binary64
import Wiring.Decimal.Shortest
import Wiring.Decimal.Spelling
import Wiring.Disk.Basic
import Wiring.Disk.Change
import Wiring.Disk.OpenFile
import Wiring.Disk.Path
import Wiring.Disk.Staging
import Wiring.Disk.Walk
import Wiring.Draft
import Wiring.Failure
import Wiring.Fragment
import Wiring.Grouping
import Wiring.Inspect
import Wiring.Json.Decode
import Wiring.Json.Fault
import Wiring.Json.Node
import Wiring.Json.Numeral
import Wiring.Json.Record
import Wiring.Json.Refusal
import Wiring.Json.Union
import Wiring.Json.Value
import Wiring.Metadata.Decode
import Wiring.Metadata.Encode
import Wiring.Model
import Wiring.Program
import Wiring.Proofs.Affix
import Wiring.Proofs.Defect
import Wiring.Proofs.Disk.Commit
import Wiring.Proofs.Disk.Directory
import Wiring.Proofs.Disk.Making
import Wiring.Proofs.Disk.Staging
import Wiring.Proofs.Disk.Walk
import Wiring.Proofs.Disk.Writing
import Wiring.Proofs.Dispatch
import Wiring.Proofs.Draft
import Wiring.Proofs.Fixture
import Wiring.Proofs.Grouping
import Wiring.Proofs.Inspect
import Wiring.Proofs.Instance
import Wiring.Proofs.Json.Arrangement
import Wiring.Proofs.Json.Ending
import Wiring.Proofs.Json.Following
import Wiring.Proofs.Json.Numeral
import Wiring.Proofs.Json.Path
import Wiring.Proofs.Json.Quoted
import Wiring.Proofs.Json.Reading
import Wiring.Proofs.Json.Record
import Wiring.Proofs.Json.Refusing
import Wiring.Proofs.Json.Scan
import Wiring.Proofs.Json.Tokens
import Wiring.Proofs.Json.Union
import Wiring.Proofs.Layout
import Wiring.Proofs.Metadata.Ending
import Wiring.Proofs.Metadata.Form
import Wiring.Proofs.Metadata.Guarding
import Wiring.Proofs.Metadata.Membership
import Wiring.Proofs.Metadata.Reading
import Wiring.Proofs.Metadata.RoundTrip
import Wiring.Proofs.Naming.Field
import Wiring.Proofs.Naming.Routine
import Wiring.Proofs.Nesting.Registration
import Wiring.Proofs.Nesting.Scanner
import Wiring.Proofs.Nesting.Unit
import Wiring.Proofs.Opening
import Wiring.Proofs.Partition
import Wiring.Proofs.Registration
import Wiring.Proofs.Repetition
import Wiring.Proofs.Routine
import Wiring.Proofs.Run.Directory
import Wiring.Proofs.Run.Isolation
import Wiring.Proofs.Run.Log
import Wiring.Proofs.Run.Program
import Wiring.Proofs.Run.Watch
import Wiring.Proofs.Script
import Wiring.Proofs.Settings.Precedence
import Wiring.Proofs.Settings.Reading
import Wiring.Proofs.Sink.Calls
import Wiring.Proofs.Sink.Release
import Wiring.Proofs.Sink.Trace
import Wiring.Proofs.Statement
import Wiring.Proofs.Text.Delimited
import Wiring.Proofs.Text.Escaping
import Wiring.Proofs.Text.Search
import Wiring.Report
import Wiring.Routine
import Wiring.Run
import Wiring.Settings.Basic
import Wiring.Settings.Codec
import Wiring.Settings.Fault
import Wiring.Settings.Layers
import Wiring.Settings.Load
import Wiring.Settings.Variable
import Wiring.Sink.Basic
import Wiring.Sink.Memory
import Wiring.SourceUnit
import Wiring.Statement
import Wiring.Text.Basic
import Wiring.Text.Quoted
import Wiring.Text.Search
import Wiring.Text.Terminal
import Wiring.Toml.Document
import Wiring.Toml.Quoted
import Wiring.Toml.Scalar
import Wiring.Toml.Value
