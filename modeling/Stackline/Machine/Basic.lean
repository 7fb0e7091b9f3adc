import Stackline.Event
import Stackline.Input.Basic
import Stackline.Program.Index
import Stackline.Sink

/-!
# The machine

A machine executes one program once. It has a stack of operands, a stack of registers and a stack
of the lines to return to, and it is connected to a host through its input and its sink. All that
it handed to the host and all that happened to it is kept, in order.
-/

namespace Stackline

/-- The state of a machine. -/
structure Machine where
  program : Program
  /-- Where the lines of the program are. -/
  index : LineIndex := .ofProgram program
  index_eq : index = .ofProgram program := by rfl
  /-- The position of the instruction to execute next. -/
  pc : Nat := 0
  /-- Whether the current instruction has set `pc` itself. -/
  branched : Bool := false
  /-- Whether the machine was stopped for good. -/
  killed : Bool := false
  /-- The instruction being executed, or executed last. -/
  current : Option Instruction := none
  operands : Stack Value := .empty
  registers : Stack Value := .empty
  calls : Stack LineNumber := .empty
  input : Input
  sink : Sink
  /-- All that was handed to the host. -/
  exchanges : Array Exchange := #[]
  /-- The faults that ended the run. -/
  faults : List Error := []
  /-- All events. -/
  log : Array Event := #[]

namespace Machine

/-- The machine before the first step. -/
def start (program : Program) (source : Source) (sink : Sink) : Machine :=
  { program, input := { source }, sink }

/-- Whether there is an instruction to execute. -/
def isRunning (m : Machine) : Bool := !m.killed && m.pc < m.program.size

/-- Stop for good. -/
def kill (m : Machine) : Machine := { m with killed := true, pc := m.program.size }

/-- Note an event. -/
def note (m : Machine) (e : Event) : Machine := { m with log := m.log.push e }

/-- The text written so far. -/
def written (m : Machine) : String := String.join (m.exchanges.toList.map Exchange.output)

/-- The state of a machine in words. -/
def inspect (m : Machine) : String :=
  "Runtime \x7b pc: " ++ toString m.pc ++
    ", killed: " ++ (if m.killed then "true" else "false") ++
    ", stack: " ++ Value.inspectAll m.operands.toList ++
    ", registers: " ++ Value.inspectAll m.registers.toList ++
    ", calls: " ++ Text.bracketed (m.calls.toList.map fun n => toString n.toNat) ++ " \x7d"

end Machine

end Stackline
