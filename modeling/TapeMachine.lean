import TapeMachine.Assembly
import TapeMachine.Calendar
import TapeMachine.Clock
import TapeMachine.CommandLine.Options
import TapeMachine.CommandLine.Run
import TapeMachine.Diagnostic
import TapeMachine.Directory
import TapeMachine.ErrorDerive.Expansion
import TapeMachine.ErrorDerive.Generator
import TapeMachine.ErrorDerive.Item
import TapeMachine.ErrorDerive.Lexeme
import TapeMachine.ErrorDerive.Message
import TapeMachine.Event
import TapeMachine.Failure
import TapeMachine.Fault
import TapeMachine.Host
import TapeMachine.Host.Console
import TapeMachine.Host.Rationed
import TapeMachine.Host.Scripted
import TapeMachine.Instruction
import TapeMachine.LabelTable
import TapeMachine.Log
import TapeMachine.Machine
import TapeMachine.Main
import TapeMachine.Numeral
import TapeMachine.Opcode
import TapeMachine.Operand
import TapeMachine.Profile
import TapeMachine.Profile.Table
import TapeMachine.Program
import TapeMachine.Proofs.Assembly.InOrder
import TapeMachine.Proofs.Assembly.Operands
import TapeMachine.Proofs.Assembly.Resolution
import TapeMachine.Proofs.Assembly.RoundTrip
import TapeMachine.Proofs.Assembly.Survey
import TapeMachine.Proofs.Instruction
import TapeMachine.Proofs.LabelTable
import TapeMachine.Proofs.Machine.Control
import TapeMachine.Proofs.Machine.Step
import TapeMachine.Proofs.Numeral
import TapeMachine.Proofs.Outcome
import TapeMachine.Proofs.Source.Words
import TapeMachine.Rejection
import TapeMachine.Source.Statement
import TapeMachine.Source.Token
import TapeMachine.Tape
import TapeMachine.Text.Blank
import TapeMachine.Text.Invisible
import TapeMachine.Text.Layout
import TapeMachine.Text.Lines
import TapeMachine.Text.Utf8
import TapeMachine.Timestamp
import TapeMachine.Trace
import TapeMachine.Trace.Log
import TapeMachine.Proofs.Machine.Run
import TapeMachine.Proofs.Machine.Limit
import TapeMachine.Proofs.Machine.Calls
import TapeMachine.Proofs.Machine.Session
import TapeMachine.Proofs.Machine.Faults
import TapeMachine.Proofs.Source.Layout
import TapeMachine.Proofs.Assembly.Layout
import TapeMachine.Proofs.Assembly.Concatenation
import TapeMachine.Proofs.Machine.Trace
import TapeMachine.Proofs.Machine.Accounting
import TapeMachine.Proofs.Tape
import TapeMachine.Proofs.Machine.Commuting
import TapeMachine.Proofs.Machine.Enlargement
import TapeMachine.Proofs.Machine.Loading
import TapeMachine.Proofs.Machine.Hosts
import TapeMachine.Proofs.Machine.Input
import TapeMachine.Proofs.Trace.Detail
import TapeMachine.Proofs.Machine.Replay
import TapeMachine.Proofs.Text
import TapeMachine.Proofs.Diagnostic
import TapeMachine.Proofs.Machine.Consoles
import TapeMachine.Proofs.Assembly.Jumps
import TapeMachine.Proofs.Assembly.Location
import TapeMachine.Proofs.Assembly.Renaming
import TapeMachine.Proofs.Assembly.Listing
import TapeMachine.Proofs.Machine.Cells
import TapeMachine.Proofs.Machine.Checks
import TapeMachine.Proofs.Machine.Arithmetic
import TapeMachine.Proofs.CommandLine
import TapeMachine.Proofs.Machine.Frame
import TapeMachine.Proofs.Trace.Rows
import TapeMachine.Proofs.CommandLine.TraceFile
import TapeMachine.Proofs.ErrorDerive.Template
import TapeMachine.Proofs.ErrorDerive.Naming
import TapeMachine.Proofs.ErrorDerive.Formatting
import TapeMachine.Proofs.Calendar
import TapeMachine.Proofs.Timestamp
import TapeMachine.Proofs.Assembly.OperandGrammar
import TapeMachine.Proofs.Assembly.ListingOrder
import TapeMachine.Proofs.ErrorDerive.Implicit
import TapeMachine.Proofs.ErrorDerive.Emitted
import TapeMachine.Proofs.ErrorDerive.Variants
import TapeMachine.Proofs.ErrorDerive.Enumerations
import TapeMachine.Proofs.ErrorDerive.Arguments
import TapeMachine.Proofs.Text.Grouping
import TapeMachine.Proofs.Assembly.Validation
import TapeMachine.Proofs.Source.Runs
