import JobControl.SystemError
import JobControl.Job
import JobControl.Signal
import JobControl.Signal.Set
import JobControl.Signal.Disposition
import JobControl.Signal.Inbox
import JobControl.WaitStatus
import JobControl.Text.Utf8
import JobControl.Text.Decimal
import JobControl.Job.Table
import JobControl.Notification
import JobControl.Command
import JobControl.Command.Parse
import JobControl.Command.Lexeme
import JobControl.Options
import JobControl.Log
import JobControl.Console
import JobControl.Host
import JobControl.Shell
import JobControl.Shell.Apply
import JobControl.Shell.Eval
import JobControl.EventLoop
import JobControl.EventLoop.Commands
import JobControl.ReadLoop
import JobControl.Files
import JobControl.Host.Scripted
import JobControl.Host.Fed
import JobControl.Machine.Script
import JobControl.Machine.Script.Lexer
import JobControl.Machine.Script.Parser
import JobControl.Machine.Script.Scope
import JobControl.Machine.Script.Sum
import JobControl.Machine.Script.Pattern
import JobControl.Machine.Script.Expansion
import JobControl.Machine.Script.Print
import JobControl.Machine.Script.Condition
import JobControl.Machine.Script.Builtin
import JobControl.Machine.Script.Switch
import JobControl.Machine.Script.Interpreter
import JobControl.Machine.Script.Redirect
import JobControl.Machine.Script.Children
import JobControl.Machine.Script.Simple
import JobControl.Machine.Script.Run
import JobControl.Machine.Process
import JobControl.Machine.System
import JobControl.Machine.Act
import JobControl.Machine.Program
import JobControl.Machine.Turn
import JobControl.Machine
import JobControl.Invocation
import JobControl.Main
import JobControl.Proofs.Table.Slots
import JobControl.Proofs.Table.Ids
import JobControl.Proofs.Table.Numbering
import JobControl.Proofs.Shell.Past
import JobControl.Proofs.Shell.Run
import JobControl.Proofs.Table.Distinct
import JobControl.Proofs.Shell.Lifecycle
import JobControl.Proofs.Table.Foreground
import JobControl.Proofs.Shell.Foreground
import JobControl.Proofs.ReadLoop.Interpreter
import JobControl.Proofs.ReadLoop.Run
import JobControl.Proofs.ReadLoop.Foreground
import JobControl.Proofs.Shell.Launch
import JobControl.Proofs.Text.Slice
import JobControl.Proofs.Command.Grammar
import JobControl.Proofs.Command.Parse
import JobControl.Proofs.Host.Fed
import JobControl.Proofs.ReadLoop.Lines
import JobControl.Proofs.Shell.Complaints
import JobControl.Proofs.Shell.Running
import JobControl.Proofs.ReadLoop.Running
import JobControl.Proofs.Table.Alike
import JobControl.Proofs.Table.SecondForeground
import JobControl.Proofs.Shell.Reordering
import JobControl.Proofs.Shell.Signals
import JobControl.Proofs.Table.History
import JobControl.Proofs.Table.Refusals
import JobControl.Proofs.Command.Rendering
import JobControl.Proofs.Command.Lexeme
import JobControl.Proofs.Shell.Consoles
import JobControl.Proofs.ReadLoop.Consoles
import JobControl.Proofs.EventLoop.Dispatch
import JobControl.Proofs.EventLoop.Stopping
import JobControl.Proofs.Command.Background
import JobControl.Proofs.Shell.Waiting
import JobControl.Proofs.Shell.Resuming
import JobControl.Proofs.Shell.Deferral
import JobControl.Proofs.Shell.InPlace
import JobControl.Proofs.Text.Decimal
import JobControl.Proofs.Job.Reference
import JobControl.Proofs.Shell.Naming
import JobControl.Proofs.Options.Flags
import JobControl.Proofs.WaitStatus
import JobControl.Proofs.Signal.News
import JobControl.Proofs.Text.Decoding
import JobControl.Proofs.Job.Listing
import JobControl.Proofs.Shell.Lines
import JobControl.Proofs.ReadLoop.Listing
