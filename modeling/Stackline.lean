import Stackline.CommandLine
import Stackline.Error
import Stackline.Event
import Stackline.Exchange
import Stackline.Input.Basic
import Stackline.Input.Source
import Stackline.Instruction
import Stackline.Literal.Basic
import Stackline.Literal.Malformed
import Stackline.Literal.Number
import Stackline.Literal.Quoted
import Stackline.Machine.Act
import Stackline.Machine.Basic
import Stackline.Machine.Execute
import Stackline.Machine.Jump
import Stackline.Machine.Run
import Stackline.Machine.Step
import Stackline.Main
import Stackline.Number.Binary
import Stackline.Number.Digits
import Stackline.Number.Layout
import Stackline.Number.Numeral
import Stackline.Number.Shortest
import Stackline.Opcode
import Stackline.Program.Basic
import Stackline.Program.Index
import Stackline.Proofs.Input.Source
import Stackline.Proofs.Input.Stream
import Stackline.Proofs.Literal.Denotation
import Stackline.Proofs.Literal.Quoted
import Stackline.Proofs.Literal.Shape
import Stackline.Proofs.Machine.Act
import Stackline.Proofs.Machine.Alarms
import Stackline.Proofs.Machine.Effect
import Stackline.Proofs.Machine.Errors
import Stackline.Proofs.Machine.Exact
import Stackline.Proofs.Machine.Fault
import Stackline.Proofs.Machine.Flush
import Stackline.Proofs.Machine.Forward
import Stackline.Proofs.Machine.Frame
import Stackline.Proofs.Machine.Invariant
import Stackline.Proofs.Machine.Jump
import Stackline.Proofs.Machine.Locality
import Stackline.Proofs.Machine.Parts
import Stackline.Proofs.Machine.Push
import Stackline.Proofs.Machine.Run
import Stackline.Proofs.Machine.Subroutine
import Stackline.Proofs.Machine.Unknown
import Stackline.Proofs.Number.Integer
import Stackline.Proofs.Number.Numeral
import Stackline.Proofs.Program
import Stackline.Proofs.Program.Index
import Stackline.Proofs.Session.Alarms
import Stackline.Proofs.Session.Builtin
import Stackline.Proofs.Session.Call
import Stackline.Proofs.Session.Cooperative
import Stackline.Proofs.Session.Driving
import Stackline.Proofs.Session.Reachable
import Stackline.Proofs.Session.Simulation
import Stackline.Proofs.Session.Stopped
import Stackline.Proofs.SourceLine.Commas
import Stackline.Proofs.SourceLine.Layout
import Stackline.Proofs.SourceLine.Listing
import Stackline.Proofs.SourceLine.Numbers
import Stackline.Proofs.SourceLine.Protected
import Stackline.Proofs.SourceLine.Remark
import Stackline.Proofs.Stack
import Stackline.Proofs.Stack.Bounded
import Stackline.Proofs.Text
import Stackline.Proofs.Value.Arithmetic
import Stackline.Proofs.Value.Comparison
import Stackline.Session.Basic
import Stackline.Session.Call
import Stackline.Sink
import Stackline.SourceLine
import Stackline.Stack
import Stackline.Text.Blank
import Stackline.Text.Lines
import Stackline.Text.Quoted
import Stackline.Text.Ranges
import Stackline.Text.Shown
import Stackline.Text.Word
import Stackline.Value.Basic
import Stackline.Value.Operation
