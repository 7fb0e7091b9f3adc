import Stackline.Machine.Run
import Stackline.SourceLine

/-!
# The command line

The command runs one program file to its end, with standard input as the source and standard output
as the sink. A fault of the program ends it quietly; any other error is shown in bold on standard
error, and the command then ends with the code 1. Without a file it says how it is used.
-/

namespace Stackline.CommandLine

/-- What a command leaves behind. -/
structure Output where
  stdout : String := ""
  stderr : String := ""
  code : UInt32 := 0
  deriving DecidableEq, Repr

/-- Why a file cannot be loaded. -/
inductive LoadFault where
  | notFound
  | isDirectory
  | notText
  /-- Another reason, in words. -/
  | other (message : String)
  deriving DecidableEq, Repr

/-- The reason in words. -/
def LoadFault.message : LoadFault → String
  | notFound => "No such file or directory (os error 2)"
  | isDirectory => "Is a directory (os error 21)"
  | notText => LineReader.notText.message
  | other m => m

/-- The text of a program file from its bytes. -/
def decode (bytes : ByteArray) : Except LoadFault String :=
  match String.fromUTF8? bytes with
  | some text => .ok text
  | none => .error .notText

/-- The error for a file that cannot be loaded. -/
def loadError (name : String) (f : LoadFault) : Error :=
  { cause := .io (name ++ ": " ++ f.message) }

/-- How the command is used. -/
def usage : String := "usage: cabsi <file>\n"

/-- The code of a command that was used wrongly. -/
def usageCode : UInt32 := 2

/-- An error on standard error. -/
def fatal (e : Error) : String := "\x1b[1m" ++ e.display ++ "\x1b[0m\n"

/-- The code of a command that met an error. -/
def fatalCode : UInt32 := 1

/-- The machine for a program text, with bytes as its input. -/
def machine (text : String) (stdin : ByteArray) : Machine :=
  .start (.ofSource text) (.ofBytes stdin) (.writer {})

/-- Run a program text for at most `fuel` steps. -/
def runText (fuel : Nat) (text : String) (stdin : ByteArray) : Option Output :=
  match (machine text stdin).runCooperatively false fuel {} with
  | none => none
  | some (.ok _ m) => some { stdout := m.written }
  | some (.error e m) => some { stdout := m.written, stderr := fatal e, code := fatalCode }

/-- What the command does with some arguments, where `load` gives the bytes of a file. -/
def output (fuel : Nat) (args : List String) (load : String → Except LoadFault ByteArray)
    (stdin : ByteArray) : Option Output :=
  match args with
  | [] => some { stderr := usage, code := usageCode }
  | name :: _ =>
    match load name >>= decode with
    | .ok text => runText fuel text stdin
    | .error f => some { stderr := fatal (loadError name f), code := fatalCode }

end Stackline.CommandLine

namespace Stackline.Machine

/-- Run a program text on bytes as its input: whether it was stopped before the end of its program,
or the error that it met, and the machine afterwards. -/
def interpret (fuel : Nat) (text : String) (stdin : ByteArray) :
    Option (Except Error Bool × Machine) :=
  match (CommandLine.machine text stdin).run fuel with
  | none => none
  | some (.ok () m) => some (.ok m.killed, m)
  | some (.error e m) => some (.error e, m)

end Stackline.Machine
