import ByteMachine.Alu
import ByteMachine.Bit
import ByteMachine.CheckedTexts
import ByteMachine.Fault
import ByteMachine.Files
import ByteMachine.Flags
import ByteMachine.Instruction
import ByteMachine.Json.Basic
import ByteMachine.Json.Printer
import ByteMachine.Json.Reader
import ByteMachine.Json.Token
import ByteMachine.Log.Event
import ByteMachine.Log.Filter
import ByteMachine.Log.Library
import ByteMachine.Log.Pattern.Basic
import ByteMachine.Log.Pattern.Bracket
import ByteMachine.Log.Pattern.Depth
import ByteMachine.Log.Pattern.Modes
import ByteMachine.Log.Pattern.Symbol
import ByteMachine.Log.Rule
import ByteMachine.Log.Standard
import ByteMachine.Machine.Basic
import ByteMachine.Machine.Effect
import ByteMachine.Machine.Run
import ByteMachine.Machine.Step
import ByteMachine.Main
import ByteMachine.Memory
import ByteMachine.Numeral
import ByteMachine.Operation
import ByteMachine.Program.Basic
import ByteMachine.Program.Listing
import ByteMachine.Program.Source
import ByteMachine.Proofs.Addresses
import ByteMachine.Proofs.Arithmetic
import ByteMachine.Proofs.CheckedTexts
import ByteMachine.Proofs.Checkpoint
import ByteMachine.Proofs.Comparison
import ByteMachine.Proofs.Concatenation
import ByteMachine.Proofs.Confinement
import ByteMachine.Proofs.Disassembly
import ByteMachine.Proofs.Dispatch
import ByteMachine.Proofs.Effects
import ByteMachine.Proofs.Encoding
import ByteMachine.Proofs.Faults
import ByteMachine.Proofs.Files
import ByteMachine.Proofs.Halts
import ByteMachine.Proofs.Hexadecimal
import ByteMachine.Proofs.History
import ByteMachine.Proofs.InPlace
import ByteMachine.Proofs.InstructionSet
import ByteMachine.Proofs.Intact
import ByteMachine.Proofs.JsonReading
import ByteMachine.Proofs.JsonScanning
import ByteMachine.Proofs.JsonWords
import ByteMachine.Proofs.Lifo
import ByteMachine.Proofs.Limits
import ByteMachine.Proofs.Lines
import ByteMachine.Proofs.Listing
import ByteMachine.Proofs.Loading
import ByteMachine.Proofs.LogFile
import ByteMachine.Proofs.Logging
import ByteMachine.Proofs.Narration
import ByteMachine.Proofs.Offers
import ByteMachine.Proofs.OperationTexts
import ByteMachine.Proofs.Output
import ByteMachine.Proofs.PrintedLines
import ByteMachine.Proofs.PushPop
import ByteMachine.Proofs.Registers
import ByteMachine.Proofs.RepeatedFaults
import ByteMachine.Proofs.Repetition
import ByteMachine.Proofs.Restoring
import ByteMachine.Proofs.Runs
import ByteMachine.Proofs.Session
import ByteMachine.Proofs.Source
import ByteMachine.Proofs.Stack
import ByteMachine.Proofs.Step
import ByteMachine.Proofs.Stopped
import ByteMachine.Proofs.Stores
import ByteMachine.Proofs.StraightCode
import ByteMachine.Proofs.Subroutine
import ByteMachine.Proofs.TraceLines
import ByteMachine.Proofs.Unread
import ByteMachine.Proofs.Variants
import ByteMachine.Registers
import ByteMachine.Session
import ByteMachine.Session.Run
import ByteMachine.Settings
import ByteMachine.Sink
import ByteMachine.Snapshot
import ByteMachine.Stack
import ByteMachine.Text.Alphabetic
import ByteMachine.Text.Alphanumeric
import ByteMachine.Text.Blank
import ByteMachine.Text.Bytes
import ByteMachine.Text.Line
import ByteMachine.Text.Split
import ByteMachine.Trace
import ByteMachine.World
