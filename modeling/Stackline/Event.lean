import Stackline.Error

/-!
# Diagnostics

What a host may want to know about the reading and the running of a program. Events have a level;
a message; and fields, which are named texts.
-/

namespace Stackline

/-- How important an event is, the most important first. -/
inductive Level where
  | error | warn | info | debug | trace
  deriving DecidableEq, Repr

namespace Level

/-- A level as a number, which grows as events become less important. -/
def rank : Level → Nat
  | error => 0
  | warn => 1
  | info => 2
  | debug => 3
  | trace => 4

/-- The name of a level. -/
def name : Level → String
  | error => "ERROR"
  | warn => "WARN"
  | info => "INFO"
  | debug => "DEBUG"
  | trace => "TRACE"

end Level

/-- Something that happened. -/
inductive Event where
  /-- A line of program text has a number that is too great. -/
  | lineOutOfRange (digits : String)
  /-- A line of program text has a mnemonic outside the instruction set. -/
  | unknownInstruction (line : LineNumber) (mnemonic : String)
  /-- An instruction outside the instruction set was passed over. -/
  | unimplemented (line : LineNumber) (mnemonic : String)
  /-- A jump went beyond the last line. -/
  | noSuchLine (target : Int)
  /-- A jump had no target. -/
  | noTarget (param : Option String)
  /-- A stack held too few entries. -/
  | underflow (mnemonic : String) (line : LineNumber) (expected actual : Nat) (stack : StackName)
  /-- A fault other than an underflow ended the run. -/
  | aborted (line : LineNumber) (mnemonic : String) (error : Error)
  /-- The stacks, the newest entry first, when an instruction asked for a report. -/
  | snapshot (pc : Nat) (line : LineNumber) (mnemonic : String) (operands registers : List Value)
  /-- A run was cancelled. -/
  | cancelled (pc : Nat)
  /-- A run ended. -/
  | finished (killed : Bool)
  /-- An instruction is about to be executed. -/
  | step (pc : Nat) (line : LineNumber) (mnemonic : String)
  deriving DecidableEq

namespace Event

/-- The level of an event. -/
def level : Event → Level
  | underflow .. | aborted .. => .error
  | lineOutOfRange _ | unknownInstruction .. | unimplemented .. | noSuchLine _ | noTarget _ => .warn
  | snapshot .. => .info
  | cancelled _ | finished _ => .debug
  | step .. => .trace

/-- An event in words. -/
def message : Event → String
  | lineOutOfRange _ => "line number out of range"
  | unknownInstruction .. => "unknown instruction"
  | unimplemented .. => "unimplemented instruction"
  | noSuchLine _ | noTarget _ => "cannot jump to line"
  | underflow .. => "stack underflow"
  | aborted .. => "run aborted"
  | snapshot .. => "debug"
  | cancelled _ => "run cancelled"
  | finished _ => "run finished"
  | step .. => "step"

/-- An optional text, in quotes if it is there. -/
def optionalText : Option String → String
  | some s => "Some(" ++ Text.quoted s ++ ")"
  | none => "None"

/-- The particulars of an event. -/
def fields : Event → List (String × String)
  | lineOutOfRange digits => [("line", digits)]
  | unknownInstruction line mnemonic | unimplemented line mnemonic =>
    [("line", toString line.toNat), ("mnemonic", mnemonic)]
  | noSuchLine target => [("line", toString target)]
  | noTarget param => [("param", optionalText param)]
  | underflow mnemonic line expected actual stack =>
    [("opcode", mnemonic), ("line", toString line.toNat), ("expected", toString expected),
     ("actual", toString actual), ("stack", stack.title)]
  | aborted line mnemonic error =>
    [("line", toString line.toNat), ("mnemonic", mnemonic), ("error", error.display)]
  | snapshot pc line mnemonic operands registers =>
    [("pc", toString pc), ("line", toString line.toNat), ("mnemonic", mnemonic),
     ("stack", Value.inspectAll operands.reverse),
     ("registers", Value.inspectAll registers.reverse)]
  | cancelled pc => [("pc", toString pc)]
  | finished killed => [("killed", if killed then "true" else "false")]
  | step pc line mnemonic =>
    [("pc", toString pc), ("line", toString line.toNat), ("mnemonic", mnemonic)]

end Event

end Stackline
