import Bearer.Text.CodePoint
import Bearer.Text.Hex
import Bearer.Text.Utf8
import Bearer.Text.Wide
import Bearer.Text.Printable
import Bearer.Text.UpperCase
import Bearer.Text.Quoted
import Bearer.Decimal.Digits
import Bearer.Decimal.Binary64
import Bearer.Decimal.Shortest
import Bearer.Decimal.Layout
import Bearer.Decimal.Reading
import Bearer.Entries
import Bearer.Json.Value
import Bearer.Json.Reader
import Bearer.Json.Printer
import Bearer.Json.Document
import Bearer.Time.Instant
import Bearer.Time.Calendar
import Bearer.Time.Timestamp
import Bearer.Path
import Bearer.Secret
import Bearer.Credential
import Bearer.Report
import Bearer.Http.Message
import Bearer.Http.Form
import Bearer.Grant
import Bearer.Decimal.Fixed
import Bearer.Log.Level
import Bearer.Log.Loggers
import Bearer.Log.Datum
import Bearer.Log.Record
import Bearer.Log.Template
import Bearer.Log.Format
import Bearer.Log.Braces
import Bearer.Log.Sink
import Bearer.Text.Fault
import Bearer.Cache.Refresh
import Bearer.Cache.State
import Bearer.Cache.Run
import Bearer.Settings.Variables
import Bearer.Settings.Field
import Bearer.Settings.Basic
import Bearer.Backend.Builder
import Bearer.Text.LowerCase
import Bearer.Text.Base64
import Bearer.Decimal.Numeral
import Bearer.Http.Punycode
import Bearer.Http.Escape
import Bearer.Http.HostName
import Bearer.Http.Url
import Bearer.Http.Status
import Bearer.Http.Client
import Bearer.Command.Usage
import Bearer.Command.Run
import Bearer.Main
import Bearer.Proofs.Except
import Bearer.Proofs.Entries
import Bearer.Proofs.Text.Utf16
import Bearer.Proofs.Text.Utf8
import Bearer.Proofs.Form
import Bearer.Proofs.Form.RoundTrip
import Bearer.Proofs.Json.Grammar
import Bearer.Proofs.Json.Strings
import Bearer.Proofs.Json.Numbers
import Bearer.Proofs.Json.Reading
import Bearer.Proofs.Json.Documents
import Bearer.Proofs.Json.Encoding
import Bearer.Proofs.Json.Nesting
import Bearer.Proofs.Grant.Schema
import Bearer.Proofs.Grant.Wire
import Bearer.Proofs.Cache.Schedule
import Bearer.Proofs.Cache.Settling
import Bearer.Proofs.Cache.Turn
import Bearer.Proofs.Cache.SingleFlight
import Bearer.Proofs.Cache.Settlement
import Bearer.Proofs.Cache.Atomicity
import Bearer.Proofs.Cache.Lock
import Bearer.Proofs.Cache.Coherence
import Bearer.Proofs.Cache.CoherentMoves
import Bearer.Proofs.Cache.Waiting
import Bearer.Proofs.Cache.Classification
import Bearer.Proofs.Cache.Sequential
import Bearer.Proofs.Cache.Desk
import Bearer.Proofs.Cache.Simulation
import Bearer.Proofs.Cache.Concurrency
import Bearer.Proofs.Cache.Service
import Bearer.Proofs.Cache.Tenure
import Bearer.Proofs.Cache.Sound
import Bearer.Proofs.Cache.Wakeup
import Bearer.Proofs.Cache.Freshness
import Bearer.Proofs.Cache.Cancellation
import Bearer.Proofs.Cache.Handover
import Bearer.Proofs.Cache.Outcomes
import Bearer.Proofs.Cache.Chronicle
import Bearer.Proofs.Cache.Necessity
import Bearer.Proofs.Cache.Boundary
import Bearer.Proofs.Cache.RequestBody
import Bearer.Proofs.Cache.Guise
import Bearer.Proofs.Cache.Redaction
import Bearer.Proofs.Cache.Mappings
import Bearer.Proofs.Cache.Secrecy
import Bearer.Proofs.Cache.Signing
import Bearer.Proofs.Backend.Choices
import Bearer.Proofs.Settings.Reading
import Bearer.Proofs.Settings.Issues
import Bearer.Proofs.Settings.Accepted
import Bearer.Proofs.Command.Parts
import Bearer.Proofs.Command.Agreement
import Bearer.Proofs.Command.Margin
import Bearer.Proofs.Command.Service
import Bearer.Proofs.Command.Output
import Bearer.Proofs.Command.Ending
import Bearer.Proofs.Command.Contract
import Bearer.Proofs.Path
import Bearer.Proofs.Log.Line
import Bearer.Proofs.Log.Loggers
import Bearer.Proofs.Log.Routes
