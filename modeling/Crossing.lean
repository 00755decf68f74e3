import Crossing.Boundary.Arena
import Crossing.Boundary.Buffer
import Crossing.Boundary.CallbackTest
import Crossing.Boundary.Native
import Crossing.Boundary.Object
import Crossing.Boundary.Thread
import Crossing.Boundary.Vector
import Crossing.Boundary.World
import Crossing.Catalog
import Crossing.Clock
import Crossing.Command.Desk
import Crossing.Command.Options
import Crossing.Command.Run
import Crossing.Config
import Crossing.Config.Document
import Crossing.Decimal.Layout
import Crossing.Decimal.Shortest
import Crossing.Decoding
import Crossing.Error
import Crossing.Fault
import Crossing.Host.FileSystem
import Crossing.Host.Path
import Crossing.Host.Tree
import Crossing.Json.Issue
import Crossing.Json.Number
import Crossing.Json.Octet
import Crossing.Json.Printer
import Crossing.Json.Reader
import Crossing.Json.Text
import Crossing.Json.Value
import Crossing.Label
import Crossing.Main
import Crossing.Memory
import Crossing.Method
import Crossing.Proofs.Boundary.Arena
import Crossing.Proofs.Boundary.Execution
import Crossing.Proofs.Boundary.Handles
import Crossing.Proofs.Boundary.KeptContexts
import Crossing.Proofs.Boundary.ObjectNames
import Crossing.Proofs.Boundary.Ownership
import Crossing.Proofs.Boundary.RepeatedCalls
import Crossing.Proofs.Boundary.Requests
import Crossing.Proofs.Boundary.Returns
import Crossing.Proofs.Boundary.Transcoding
import Crossing.Proofs.Catalog.Accounts
import Crossing.Proofs.Catalog.Discovery
import Crossing.Proofs.Catalog.Memory
import Crossing.Proofs.Catalog.Parts
import Crossing.Proofs.Catalog.Registration
import Crossing.Proofs.Catalog.Shelf
import Crossing.Proofs.Command.Files
import Crossing.Proofs.Command.Overrides
import Crossing.Proofs.Command.Phases
import Crossing.Proofs.Command.Room
import Crossing.Proofs.Config.Precedence
import Crossing.Proofs.Config.Rules
import Crossing.Proofs.Config.Sections
import Crossing.Proofs.Config.Values
import Crossing.Proofs.Decimal.Layout
import Crossing.Proofs.Decimal.Shortest
import Crossing.Proofs.Double.Quotient
import Crossing.Proofs.Double.Rank
import Crossing.Proofs.Double.Rounding
import Crossing.Proofs.Double.TotalOrder
import Crossing.Proofs.Host.Tree
import Crossing.Proofs.Json.Doubles
import Crossing.Proofs.Json.Numbers
import Crossing.Proofs.Json.Reading
import Crossing.Proofs.Label
import Crossing.Proofs.Outcome
import Crossing.Proofs.Report.Accuracy
import Crossing.Proofs.Report.Agreement
import Crossing.Proofs.Report.File
import Crossing.Proofs.Report.Loading
import Crossing.Proofs.Report.Reading
import Crossing.Proofs.Report.Rows
import Crossing.Proofs.Report.Sections
import Crossing.Proofs.Report.Values
import Crossing.Proofs.Runner.Course
import Crossing.Proofs.Runner.Durations
import Crossing.Proofs.Runner.Events
import Crossing.Proofs.Runner.Measurement
import Crossing.Proofs.Runner.Steady
import Crossing.Proofs.Runner.Sweep
import Crossing.Proofs.Runner.Watching
import Crossing.Proofs.Sample
import Crossing.Proofs.Sample.Calls
import Crossing.Proofs.Sample.Extremes
import Crossing.Proofs.Strategy.Conversions
import Crossing.Proofs.Strategy.Custody
import Crossing.Proofs.Strategy.Freeing
import Crossing.Proofs.Strategy.Gathering
import Crossing.Proofs.Strategy.Logic
import Crossing.Proofs.Strategy.ObjectCalls
import Crossing.Proofs.Strategy.TextCalls
import Crossing.Proofs.Strategy.ValueCalls
import Crossing.Proofs.Suite.Assembly
import Crossing.Proofs.Suite.Contents
import Crossing.Proofs.Suite.Invocations
import Crossing.Proofs.Suite.Release
import Crossing.Proofs.Text.Encoding
import Crossing.Proofs.Text.Terminated
import Crossing.Proofs.Text.WellFormed
import Crossing.Proofs.Timestamp
import Crossing.Proofs.Yaml.Nodes
import Crossing.Report.File
import Crossing.Report.Summary
import Crossing.Report.Text
import Crossing.Rounds
import Crossing.Runner
import Crossing.Sample
import Crossing.Schema
import Crossing.Strategy.Holder
import Crossing.Strategy.ObjectCalls
import Crossing.Strategy.Pool
import Crossing.Strategy.TextCalls
import Crossing.Strategy.ValueCalls
import Crossing.Suite
import Crossing.Text.Blank
import Crossing.Text.Printable
import Crossing.Text.Quoted
import Crossing.Text.Transcode
import Crossing.Text.Utf16
import Crossing.Text.Utf8
import Crossing.Timestamp
import Crossing.Validation
import Crossing.Yaml.Document
import Crossing.Yaml.Event
import Crossing.Yaml.Reader
import Crossing.Yaml.Scalar
import Crossing.Yaml.Tag
import Crossing.Yaml.Token
import Crossing.Yaml.Token.Cursor
import Crossing.Yaml.Token.Stream
import Crossing.Yaml.Token.Text
