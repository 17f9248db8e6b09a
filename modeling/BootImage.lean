import BootImage.Build.Action
import BootImage.Build.Pipeline
import BootImage.Build.Stage
import BootImage.Call.Basic
import BootImage.Call.Child
import BootImage.Call.Scripted
import BootImage.Call.Supervised
import BootImage.Dependency.Document
import BootImage.Dependency.Graph
import BootImage.Dependency.Query
import BootImage.Files.Basic
import BootImage.Files.Change
import BootImage.Files.Difference
import BootImage.Files.Refusal
import BootImage.Files.Walk
import BootImage.Json.Assembly
import BootImage.Json.Basic
import BootImage.Json.Issue
import BootImage.Json.Members
import BootImage.Json.Number
import BootImage.Json.Render
import BootImage.Json.Token
import BootImage.Layout
import BootImage.Machine.Image
import BootImage.Machine.Launch
import BootImage.Machine.Signal
import BootImage.Machine.System
import BootImage.Main
import BootImage.Options
import BootImage.Path.Basic
import BootImage.Path.Segments
import BootImage.Program
import BootImage.Proofs.Action.Course
import BootImage.Proofs.Action.Pursuit
import BootImage.Proofs.Build.Accounts
import BootImage.Proofs.Build.Escapes
import BootImage.Proofs.Build.Frame
import BootImage.Proofs.Build.Hints
import BootImage.Proofs.Build.Images
import BootImage.Proofs.Build.LastCall
import BootImage.Proofs.Build.Plan
import BootImage.Proofs.Build.Rounds
import BootImage.Proofs.Build.Stages
import BootImage.Proofs.Call.Machine
import BootImage.Proofs.Call.Supervision
import BootImage.Proofs.Dependency.Document
import BootImage.Proofs.Dependency.Lookup
import BootImage.Proofs.Dependency.Outcome
import BootImage.Proofs.Dependency.Rearranged
import BootImage.Proofs.Dependency.Refusal
import BootImage.Proofs.Dependency.Schema
import BootImage.Proofs.Files.Making
import BootImage.Proofs.Files.Proper
import BootImage.Proofs.Json.Derivation
import BootImage.Proofs.Json.Grammar
import BootImage.Proofs.Json.Keys
import BootImage.Proofs.Json.Lexemes
import BootImage.Proofs.Json.Members
import BootImage.Proofs.Json.Number
import BootImage.Proofs.Json.Readers
import BootImage.Proofs.Json.Rendering
import BootImage.Proofs.Json.Scanned
import BootImage.Proofs.Json.Schema
import BootImage.Proofs.Layout.Artifacts
import BootImage.Proofs.Layout.Outputs
import BootImage.Proofs.Layout.Resolution
import BootImage.Proofs.Options
import BootImage.Proofs.Path.Climbing
import BootImage.Proofs.Path.Descent
import BootImage.Proofs.Path.Entry
import BootImage.Proofs.Path.NormalForm
import BootImage.Proofs.Path.Reduction
import BootImage.Proofs.Path.Respelling
import BootImage.Proofs.Path.Way
import BootImage.Proofs.Program.Ambient
import BootImage.Proofs.Program.Calls
import BootImage.Proofs.Program.Courses
import BootImage.Proofs.Program.Entrance
import BootImage.Proofs.Program.Explained
import BootImage.Proofs.Program.Plan
import BootImage.Proofs.Program.Repeated
import BootImage.Proofs.Program.Session
import BootImage.Proofs.Program.Stopped
import BootImage.Proofs.Program.Verbosity
import BootImage.Proofs.Report.Announcements
import BootImage.Proofs.Report.Choice
import BootImage.Proofs.Report.Openings
import BootImage.Proofs.Report.Shown
import BootImage.Proofs.Settings.Faults
import BootImage.Proofs.Settings.File
import BootImage.Proofs.Settings.Load
import BootImage.Proofs.Settings.Precedence
import BootImage.Proofs.Shell.Pattern
import BootImage.Proofs.Shell.Regex
import BootImage.Proofs.Text.Casing
import BootImage.Proofs.Text.Utf8
import BootImage.Report.Component
import BootImage.Report.Event
import BootImage.Report.Failure
import BootImage.Report.Transcript
import BootImage.Report.Verbosity
import BootImage.Settings.Basic
import BootImage.Settings.File
import BootImage.Settings.Load
import BootImage.Shell.Arithmetic
import BootImage.Shell.Charset
import BootImage.Shell.Commands
import BootImage.Shell.Condition
import BootImage.Shell.Execution
import BootImage.Shell.Expression
import BootImage.Shell.Fields
import BootImage.Shell.FileSearch
import BootImage.Shell.FileTools
import BootImage.Shell.Format
import BootImage.Shell.Glob
import BootImage.Shell.LineTools
import BootImage.Shell.Lookup
import BootImage.Shell.Pattern
import BootImage.Shell.Reader
import BootImage.Shell.Regex
import BootImage.Shell.Script
import BootImage.Shell.State
import BootImage.Shell.StreamEditor
import BootImage.Shell.TextTools
import BootImage.Shell.Tool
import BootImage.Shell.Tools
import BootImage.Shell.Variables
import BootImage.Text.Blank
import BootImage.Text.Keyword
import BootImage.Text.Literal
import BootImage.Text.Mention
import BootImage.Text.NullByte
import BootImage.Text.Pieces
import BootImage.Text.Utf8
import BootImage.Text.Wide
