import CheckWorker.CommandLine
import CheckWorker.Configuration
import CheckWorker.Engine.Error
import CheckWorker.Engine.Host
import CheckWorker.Engine.Job
import CheckWorker.Engine.Spec
import CheckWorker.Environment
import CheckWorker.FileSystem.FileError
import CheckWorker.FileSystem.FilePath
import CheckWorker.FileSystem.FileTree
import CheckWorker.Gateway
import CheckWorker.Identity
import CheckWorker.Installation
import CheckWorker.Json.Cause
import CheckWorker.Json.Double
import CheckWorker.Json.Printer
import CheckWorker.Json.Reading
import CheckWorker.Json.Shape
import CheckWorker.Json.Shape.Text
import CheckWorker.Json.Shape.Tree
import CheckWorker.Json.Skip
import CheckWorker.Json.Tagged
import CheckWorker.Json.Token
import CheckWorker.Json.Value
import CheckWorker.Log.Disk
import CheckWorker.Log.Filter
import CheckWorker.Log.Level
import CheckWorker.Log.Line
import CheckWorker.Log.Logger
import CheckWorker.Log.RotatingLog
import CheckWorker.Main
import CheckWorker.Message.Event
import CheckWorker.Message.Request
import CheckWorker.Programs
import CheckWorker.Proofs.Engine.Life
import CheckWorker.Proofs.Gateway.Answers
import CheckWorker.Proofs.Gateway.Handling
import CheckWorker.Proofs.Gateway.OneEngine
import CheckWorker.Proofs.Report.Blocked
import CheckWorker.Proofs.Report.Body
import CheckWorker.Proofs.Report.Code
import CheckWorker.Proofs.Report.Number
import CheckWorker.Proofs.Report.Place
import CheckWorker.Proofs.Report.RoundTrip
import CheckWorker.Proofs.Report.Ways
import CheckWorker.Proofs.Session.Custody
import CheckWorker.Proofs.Session.ImportOnce
import CheckWorker.Proofs.Session.Kind
import CheckWorker.Proofs.World.Fault
import CheckWorker.Proofs.World.Triple
import CheckWorker.Queue
import CheckWorker.Rehearsal.NamedVersion
import CheckWorker.Rehearsal.Scene
import CheckWorker.Rehearsal.ScriptedHost
import CheckWorker.Rehearsal.Toolbox
import CheckWorker.Report.Diagnostic
import CheckWorker.Report.Pattern
import CheckWorker.Report.Reading
import CheckWorker.Report.Severity
import CheckWorker.Serving
import CheckWorker.Session
import CheckWorker.Shim.Engine
import CheckWorker.Shim.Protocol
import CheckWorker.Shim.Source
import CheckWorker.Staging
import CheckWorker.Text.Blank
import CheckWorker.Text.Digit
import CheckWorker.Text.Lines
import CheckWorker.Text.Printable
import CheckWorker.Text.Quoted
import CheckWorker.Text.Utf8
import CheckWorker.Text.Words
import CheckWorker.Uv.Host
import CheckWorker.Uv.Locating
import CheckWorker.VersionTable
import CheckWorker.Worker
import CheckWorker.World
import CheckWorker.Proofs.Report.Preference
import CheckWorker.Proofs.Report.Layout
import CheckWorker.Proofs.Json.WellFormed
import CheckWorker.Proofs.Json.Document
import CheckWorker.Proofs.Json.Reading
import CheckWorker.Proofs.Json.Passing
import CheckWorker.Proofs.Json.Agreement
import CheckWorker.Proofs.Json.Entries
import CheckWorker.Proofs.Json.Records
import CheckWorker.Proofs.Message.Grammar
import CheckWorker.Proofs.Message.Decoding
import CheckWorker.Proofs.Json.Writing
import CheckWorker.Proofs.Message.RoundTrip
import CheckWorker.Transport
import CheckWorker.Proofs.Text.Utf8
import CheckWorker.Proofs.Json.Slots
import CheckWorker.Proofs.Json.Forms
import CheckWorker.Proofs.Json.ReadBack
import CheckWorker.Proofs.Json.Controls
import CheckWorker.Proofs.Message.Framing
import CheckWorker.Proofs.Queue.Order
import CheckWorker.Proofs.Transport.Serving
import CheckWorker.Proofs.Staging.Confinement
import CheckWorker.Proofs.FileSystem.Finding
import CheckWorker.Proofs.Gateway.Independence
import CheckWorker.Proofs.Gateway.Installs
import CheckWorker.Proofs.FileSystem.Entries
import CheckWorker.Proofs.Log.Bounds
import CheckWorker.Proofs.Log.History
import CheckWorker.Proofs.Gateway.Unheard
import CheckWorker.Proofs.Session.Initialization
import CheckWorker.Proofs.FileSystem.Creating
import CheckWorker.Proofs.Staging.Unblocked
import CheckWorker.Proofs.Session.StagedReport
import CheckWorker.Proofs.FileSystem.Arriving
import CheckWorker.Proofs.Staging.Effects
import CheckWorker.Proofs.Session.CheckCourse
import CheckWorker.Proofs.Session.FoundVersion
import CheckWorker.Proofs.Log.Recovery
import CheckWorker.Proofs.VersionTable.Upserts
import CheckWorker.Proofs.Text.Lines
import CheckWorker.Proofs.Text.Decoding
import CheckWorker.Proofs.Report.Lines
import CheckWorker.Proofs.Shim.PassingOn
import CheckWorker.Proofs.VersionTable.Files
import CheckWorker.Proofs.Programs.Record
import CheckWorker.Proofs.Shim.Conversation
import CheckWorker.Proofs.Shim.InStep
import CheckWorker.Proofs.Uv.Errands
import CheckWorker.Proofs.Uv.Attempts
