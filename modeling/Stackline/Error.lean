import Stackline.Instruction
import Stackline.Literal.Basic
import Stackline.Stack
import Stackline.Value.Operation

/-!
# Errors

An error has a cause and, once it is known, the line of the instruction that met it. Some errors
are *faults*: they end a run, which then counts as finished. The others are reported to whoever
drives the run. The wording of every error is in `Cause.message` and `Error.display`.
-/

namespace Stackline

/-- The kinds of error. -/
inductive ErrorKind where
  | syntaxError | returnWithoutGosub | stackOverflow | typeMismatch | stackUnderflow
  | ioError | internalError
  deriving DecidableEq, Repr

namespace ErrorKind

/-- The number of a kind of error. -/
def number : ErrorKind → Nat
  | syntaxError => 2
  | returnWithoutGosub => 3
  | stackOverflow => 7
  | typeMismatch => 13
  | stackUnderflow => 22
  | ioError => 57
  | internalError => 51

/-- The title of a kind of error. -/
def title : ErrorKind → String
  | syntaxError => "SYNTAX ERROR"
  | returnWithoutGosub => "RETURN WITHOUT GOSUB"
  | stackOverflow => "STACK OVERFLOW"
  | typeMismatch => "TYPE MISMATCH"
  | stackUnderflow => "STACK UNDERFLOW"
  | ioError => "I/O ERROR"
  | internalError => "INTERNAL ERROR"

/-- Whether an error of this kind ends a run without being reported to its driver. -/
def isFault : ErrorKind → Bool
  | stackUnderflow | stackOverflow | typeMismatch | returnWithoutGosub => true
  | syntaxError | ioError | internalError => false

end ErrorKind

/-- The stacks of values. -/
inductive StackName where
  | operand
  | register
  deriving DecidableEq, Repr

/-- The name of a stack in messages. -/
def StackName.title : StackName → String
  | operand => "OPERAND"
  | register => "REGISTER"

/-- What went wrong. -/
inductive Cause where
  /-- A text is no literal. -/
  | literal (fault : Literal.Fault)
  /-- An operation does not take its operands. -/
  | mismatch (m : Mismatch)
  /-- An instruction found too few entries. -/
  | underflow (mnemonic : String) (stack : StackName) (expected actual : Nat)
  /-- A stack held too few entries. -/
  | short (expected actual : Nat)
  /-- A stack was full, as its notice says. -/
  | overflow (notice : String)
  /-- No line was remembered to return to. -/
  | noCall
  /-- Input or output failed. -/
  | io (message : String)
  /-- An operation did not find what its checks had promised. -/
  | internal
  /-- A host reported an error of its own. -/
  | reported (kind : ErrorKind) (message : String)
  deriving DecidableEq

namespace Cause

/-- The kind of error that a cause makes. -/
def kind : Cause → ErrorKind
  | literal _ => .syntaxError
  | mismatch _ => .typeMismatch
  | underflow .. | short .. => .stackUnderflow
  | overflow _ => .stackOverflow
  | noCall => .returnWithoutGosub
  | io _ => .ioError
  | internal => .internalError
  | reported k _ => k

/-- The cause in words, empty if the kind says it all. -/
def message : Cause → String
  | literal fault => fault.message
  | mismatch m => m.message
  | underflow mnemonic stack expected actual =>
    mnemonic ++ " EXPECTED " ++ toString expected ++ " ENTRIES ON " ++ stack.title ++
      " STACK, GOT " ++ toString actual
  | short expected actual =>
    "EXPECTED " ++ toString expected ++ " ENTRIES, GOT " ++ toString actual
  | overflow notice => notice
  | noCall | internal => ""
  | io m => m
  | reported _ m => m

/-- The cause of a failed stack operation, where `notice` is what to say of a full stack. -/
def ofStack (notice : String) : Stack.Fault → Cause
  | .full => overflow notice
  | .short expected actual => short expected actual

end Cause

/-- An error and where it arose. -/
structure Error where
  cause : Cause
  line : Option LineNumber := none
  deriving DecidableEq

namespace Error

/-- The kind of an error. -/
def kind (e : Error) : ErrorKind := e.cause.kind

/-- The cause in words. -/
def message (e : Error) : String := e.cause.message

/-- Whether an error ends a run without being reported to its driver. -/
def isFault (e : Error) : Bool := e.kind.isFault

/-- An error without a line gets one. -/
def inLine (e : Error) (line : LineNumber) : Error := { e with line := e.line.or (some line) }

/-- The error as it is shown. -/
def display (e : Error) : String :=
  e.kind.title ++
    (match e.line with
      | some n => " IN " ++ toString n.toNat
      | none => "") ++
    (if e.message.isEmpty then "" else "; " ++ e.message)

/-- The error marked as one. -/
def inspect (e : Error) : String := "Error \x7b " ++ e.display ++ " \x7d"

end Error

end Stackline
