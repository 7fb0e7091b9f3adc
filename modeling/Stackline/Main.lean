import Stackline.CommandLine

/-!
# The command

Loads a program file and runs it on standard input and output. Standard input is read when the
program first asks for input.
-/

namespace Stackline.CommandLine

/-- The bytes of a file. -/
def loadFile (name : String) : IO (Except LoadFault ByteArray) := do
  try
    return .ok (← IO.FS.readBinFile name)
  catch
    | .noFileOrDirectory .. => return .error .notFound
    | .inappropriateType .. => return .error .isDirectory
    | e => return .error (.other (toString e))

/-- Show what passed to the host since the first `shown` exchanges. -/
def showNew (m : Machine) (shown : Nat) : IO Unit := do
  let out ← IO.getStdout
  for x in m.exchanges.toList.drop shown do
    match x with
    | .flush => out.flush
    | x => out.putStr x.output

/-- Whether the next instruction asks for input. -/
def wantsInput (m : Machine) : Bool :=
  match m.fetch?.bind (·.opcode) with
  | some o => o ∈ [Opcode.input, .getc, .getl, .getw]
  | none => false

/-- Make steps until the machine stops running. -/
partial def drive (m : Machine) (fed : Bool) : IO UInt32 := do
  let m := { m with exchanges := #[], log := #[] }
  if m.isRunning then
    if !fed && wantsInput m then
      let bytes ← (← IO.getStdin).readBinToEnd
      drive { m with input := { source := .ofBytes bytes } } true
    else
      match Machine.step m with
      | .ok () m => showNew m 0; drive m fed
      | .error e m => showNew m 0; (← IO.getStderr).putStr (fatal e); return fatalCode
  else
    (← IO.getStdout).flush
    return 0

end Stackline.CommandLine

open Stackline CommandLine in
/-- Run the program file named first on the command line. -/
def main (args : List String) : IO UInt32 := do
  match args with
  | [] =>
    (← IO.getStderr).putStr usage
    return usageCode
  | name :: _ =>
    match (← loadFile name) >>= decode with
    | .ok text => drive (machine text .empty) false
    | .error f =>
      (← IO.getStderr).putStr (fatal (loadError name f))
      return fatalCode
