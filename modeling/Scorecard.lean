import Scorecard.Alert.Basic
import Scorecard.Alert.Firing
import Scorecard.Alert.Json
import Scorecard.Benchmark.Aggregate
import Scorecard.Benchmark.Basic
import Scorecard.Benchmark.Trace
import Scorecard.CommandLine.Arguments
import Scorecard.CommandLine.Commands
import Scorecard.CommandLine.Compiled
import Scorecard.CommandLine.ErrorReport
import Scorecard.CommandLine.LogFilter
import Scorecard.CommandLine.LogText
import Scorecard.CommandLine.Script
import Scorecard.Count
import Scorecard.Decimal.Binary
import Scorecard.Decimal.Layout
import Scorecard.Decimal.Nearest
import Scorecard.Decimal.Reader
import Scorecard.Decimal.Shortest
import Scorecard.Digest.Sha256
import Scorecard.Execution.Basic
import Scorecard.Execution.Retry
import Scorecard.Execution.Scheduled
import Scorecard.Execution.Scoring
import Scorecard.Expression.Arguments
import Scorecard.Expression.Call
import Scorecard.Expression.Compile
import Scorecard.Expression.Diagnostic
import Scorecard.Expression.Fault
import Scorecard.Expression.Help
import Scorecard.Expression.Lexer
import Scorecard.Expression.Record
import Scorecard.Expression.Token
import Scorecard.Formula.Basic
import Scorecard.Formula.Evaluate
import Scorecard.Formula.Fingerprint
import Scorecard.Formula.Json
import Scorecard.Formula.Printer
import Scorecard.Journal.Basic
import Scorecard.Journal.Counters
import Scorecard.Journal.Event
import Scorecard.Json.Basic
import Scorecard.Json.Canonical
import Scorecard.Json.Document
import Scorecard.Json.Fields
import Scorecard.Json.Number
import Scorecard.Json.Parser
import Scorecard.Json.Printer
import Scorecard.Kpi.Basic
import Scorecard.Kpi.HistoryEntry
import Scorecard.Kpi.Specification
import Scorecard.Main
import Scorecard.Metric.Name
import Scorecard.Metric.Registry
import Scorecard.Proofs.Decimal.Reading
import Scorecard.Proofs.Expression.Grammar
import Scorecard.Proofs.Expression.ArgumentReadings
import Scorecard.Proofs.Expression.Lexing
import Scorecard.Report.Basic
import Scorecard.Report.Markdown
import Scorecard.Report.Summary
import Scorecard.Run.Basic
import Scorecard.Run.Json
import Scorecard.Schedule.Basic
import Scorecard.Schedule.Json
import Scorecard.Settings
import Scorecard.Supply
import Scorecard.Table
import Scorecard.Text.Blank
import Scorecard.Text.Case
import Scorecard.Text.CaseData
import Scorecard.Text.Hex
import Scorecard.Text.HiddenData
import Scorecard.Text.Quoted
import Scorecard.Timestamp
import Scorecard.Uuid
import Scorecard.Proofs.Table
import Scorecard.Proofs.Expression.Acceptance
import Scorecard.Proofs.Decimal.Bits
import Scorecard.Proofs.Decimal.Rounding
import Scorecard.Proofs.Decimal.RoundTrip
import Scorecard.Proofs.Expression.Printing
import Scorecard.Proofs.Expression.Reparsing
import Scorecard.Proofs.Execution.Scoring
import Scorecard.Proofs.Execution.Course
import Scorecard.Proofs.Execution.Outcome
import Scorecard.Proofs.Alert.Checking
import Scorecard.Proofs.Execution.Containment
import Scorecard.Proofs.Timestamp
import Scorecard.Proofs.Run.Operation
import Scorecard.Proofs.Run.Stamps
import Scorecard.Proofs.Run.InPlace
import Scorecard.Proofs.Run.Irreversibility
import Scorecard.Proofs.Schedule.Operation
import Scorecard.Proofs.Schedule.Breaker
import Scorecard.Proofs.Schedule.Bookkeeping
import Scorecard.Proofs.Execution.Scheduled
import Scorecard.Proofs.Execution.Repeated
import Scorecard.Proofs.Formula.Evaluation
import Scorecard.Proofs.Expression.Validation
import Scorecard.Proofs.Json.Numbers
import Scorecard.Proofs.Json.Strings
import Scorecard.Proofs.Json.Compact
import Scorecard.Proofs.Json.Canonical
import Scorecard.Proofs.Formula.Fingerprint
import Scorecard.Proofs.Text.Span
import Scorecard.Proofs.Timestamp.Order
import Scorecard.Proofs.Alert.Cooldown
import Scorecard.Proofs.Text.Case
import Scorecard.Proofs.Metric.Name
import Scorecard.Proofs.Json.Reading
import Scorecard.Proofs.Formula.RoundTrip
import Scorecard.Proofs.Json.Literals
import Scorecard.Proofs.Json.Parsing
import Scorecard.Proofs.Timestamp.Calendar
import Scorecard.Proofs.Timestamp.Text
import Scorecard.Proofs.Uuid
import Scorecard.Proofs.Json.Stored
import Scorecard.Proofs.Json.Fields
import Scorecard.Proofs.Benchmark.Storage
import Scorecard.Proofs.Run.Storage
import Scorecard.Proofs.Schedule.Storage
import Scorecard.Proofs.Storage
import Scorecard.Proofs.Decimal.Order
import Scorecard.Proofs.Formula.Policy
import Scorecard.Proofs.Alert.Calendar
import Scorecard.Proofs.Alert.FiringRule
import Scorecard.Proofs.Execution.TraceScores
import Scorecard.Proofs.Execution.Results
import Scorecard.Proofs.Formula.Weights
import Scorecard.Proofs.Expression.Positions
import Scorecard.Proofs.Expression.Places
import Scorecard.Proofs.Expression.Faults
import Scorecard.Proofs.Expression.Independence
import Scorecard.Proofs.Expression.Diagnosis
import Scorecard.Proofs.Expression.RepeatedWeights
import Scorecard.Proofs.Decimal.Overflow
import Scorecard.Proofs.Formula.FiniteScores
import Scorecard.Proofs.Execution.FiniteScores
import Scorecard.Proofs.Expression.Order
import Scorecard.Proofs.Expression.GrowingRegistry
import Scorecard.Proofs.Expression.Rewriting
import Scorecard.Proofs.Expression.Cuts
import Scorecard.Proofs.Expression.Layout
import Scorecard.Proofs.Expression.RegisteredNames
import Scorecard.Proofs.Expression.Availability
import Scorecard.Proofs.Execution.Retries
import Scorecard.Proofs.Kpi.Resolution
import Scorecard.Proofs.Decimal.Exact
import Scorecard.Proofs.Benchmark.Aggregate
import Scorecard.Proofs.Text.ByteOrder
import Scorecard.Proofs.Json.Spelling
import Scorecard.Proofs.Json.CanonicalForm
import Scorecard.Proofs.Metric.Union
import Scorecard.Proofs.Report.Storage
import Scorecard.Proofs.Journal
import Scorecard.Proofs.Execution.Accounting
import Scorecard.Proofs.Expression.Lexemes
import Scorecard.Proofs.Metric.NormalForm
