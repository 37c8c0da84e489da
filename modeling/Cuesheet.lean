import Cuesheet.Bridge.Basic
import Cuesheet.Bridge.Service
import Cuesheet.Bytes
import Cuesheet.CommandLine.Execution
import Cuesheet.CommandLine.Grammar
import Cuesheet.CommandLine.Overlay
import Cuesheet.CommandLine.Parser
import Cuesheet.Datum.Basic
import Cuesheet.Datum.Decode
import Cuesheet.Form.Choice
import Cuesheet.Form.Configuration
import Cuesheet.Form.Track
import Cuesheet.Host
import Cuesheet.Invocation.Arguments
import Cuesheet.Invocation.Controller
import Cuesheet.Invocation.Fault
import Cuesheet.Invocation.Launch
import Cuesheet.Invocation.Locator
import Cuesheet.Invocation.Output
import Cuesheet.Json.Number
import Cuesheet.Json.Reader
import Cuesheet.Json.Writer
import Cuesheet.Line
import Cuesheet.Main
import Cuesheet.Number.Binary64
import Cuesheet.Number.Notation
import Cuesheet.Number.Shortest
import Cuesheet.Path
import Cuesheet.Proofs.Bridge.Attention
import Cuesheet.Proofs.Bridge.Completion
import Cuesheet.Proofs.Bridge.Course
import Cuesheet.Proofs.Bridge.Delivery
import Cuesheet.Proofs.Bridge.Lines
import Cuesheet.Proofs.Bridge.Shutdown
import Cuesheet.Proofs.Bridge.Signals
import Cuesheet.Proofs.Bridge.Soundness
import Cuesheet.Proofs.Bridge.Tasks
import Cuesheet.Proofs.Bridge.Transcript
import Cuesheet.Proofs.CommandLine.Preview
import Cuesheet.Proofs.Invocation.Interleaving
import Cuesheet.Proofs.Invocation.Preview
import Cuesheet.Proofs.Invocation.Reading
import Cuesheet.Proofs.Invocation.Refusal
import Cuesheet.Proofs.Invocation.Start
import Cuesheet.Proofs.Invocation.Watchers
import Cuesheet.Proofs.Json.Lines
import Cuesheet.Proofs.Json.Number
import Cuesheet.Proofs.Json.Range
import Cuesheet.Proofs.Json.RoundTrip
import Cuesheet.Proofs.Json.Text
import Cuesheet.Proofs.Number.Digits
import Cuesheet.Proofs.Number.Finite
import Cuesheet.Proofs.Run.Blocks
import Cuesheet.Proofs.Run.Brackets
import Cuesheet.Proofs.Run.History
import Cuesheet.Proofs.Run.Identifier
import Cuesheet.Proofs.Run.InStep
import Cuesheet.Proofs.Run.Spectator
import Cuesheet.Proofs.Run.Transitions
import Cuesheet.Proofs.Text.ShellWord
import Cuesheet.Proofs.Text.Spelling
import Cuesheet.Proofs.Text.Utf8
import Cuesheet.Proofs.Time.Instant
import Cuesheet.Proofs.Wire.Messages
import Cuesheet.Proofs.Wire.Models
import Cuesheet.Proofs.Wire.Paths
import Cuesheet.Rehearsal.Command
import Cuesheet.Rehearsal.FileTree
import Cuesheet.Rehearsal.Machine
import Cuesheet.Rehearsal.Performance
import Cuesheet.Rehearsal.Session
import Cuesheet.Rehearsal.Shell.Arithmetic
import Cuesheet.Rehearsal.Shell.Condition
import Cuesheet.Rehearsal.Shell.Evaluation
import Cuesheet.Rehearsal.Shell.Expansion
import Cuesheet.Rehearsal.Shell.Format
import Cuesheet.Rehearsal.Shell.Pattern
import Cuesheet.Rehearsal.Shell.Reader
import Cuesheet.Rehearsal.Shell.State
import Cuesheet.Rehearsal.Shell.Syntax
import Cuesheet.Rehearsal.Shell.Token
import Cuesheet.Rehearsal.Shell.Tools
import Cuesheet.Run.Event
import Cuesheet.Run.Identifier
import Cuesheet.Run.Operation
import Cuesheet.Run.State
import Cuesheet.Run.Status
import Cuesheet.Settings.Basic
import Cuesheet.Settings.Load
import Cuesheet.Text.Blank
import Cuesheet.Text.Hidden
import Cuesheet.Text.Literal
import Cuesheet.Text.ShellWord
import Cuesheet.Text.Utf8
import Cuesheet.Time.Date
import Cuesheet.Time.Instant
import Cuesheet.Toml.Reader
import Cuesheet.Toml.Scalar
import Cuesheet.Toml.Table
import Cuesheet.Wire.Codec
import Cuesheet.Wire.Form
import Cuesheet.Wire.Message
import Cuesheet.Wire.Run
import Cuesheet.Wire.Settings
import Cuesheet.Wire.Text
import Cuesheet.Proofs.Run.Verdict
import Cuesheet.Proofs.Invocation.OpenedFile
import Cuesheet.Proofs.CommandLine.Words
import Cuesheet.Proofs.CommandLine.ReadBack
import Cuesheet.Proofs.Invocation.Flags
import Cuesheet.Proofs.Invocation.TrackWords
import Cuesheet.Proofs.CommandLine.Given
import Cuesheet.Proofs.Invocation.Validity
import Cuesheet.Proofs.Text.Trim
import Cuesheet.Proofs.Settings.Usable
import Cuesheet.Proofs.Datum.Reordered
import Cuesheet.Proofs.Wire.Blind
import Cuesheet.Proofs.Wire.Held
import Cuesheet.Proofs.Wire.MemberOrder
import Cuesheet.Proofs.Json.Parts
import Cuesheet.Proofs.Json.Rearranged
import Cuesheet.Proofs.Text.Pieces
import Cuesheet.Proofs.Invocation.Conditions
import Cuesheet.Proofs.Wire.Fields
import Cuesheet.Proofs.Invocation.Origin
import Cuesheet.Proofs.Invocation.Forwarding
import Cuesheet.Proofs.CommandLine.Layers
import Cuesheet.Proofs.CommandLine.Override
import Cuesheet.Proofs.Text.ShellCommand
import Cuesheet.Proofs.CommandLine.FirstWord
import Cuesheet.Proofs.CommandLine.OneRun
import Cuesheet.Proofs.Form.Track
