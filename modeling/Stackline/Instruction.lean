import Stackline.Opcode
import Stackline.Text.Quoted

/-!
# Instructions

One numbered line of a program: a mnemonic and its parameters, which are kept as they were
written. A mnemonic outside the instruction set has no operation.
-/

namespace Stackline

/-- The number in front of a line. -/
abbrev LineNumber := UInt32

/-- A line of a program. -/
structure Instruction where
  line : LineNumber
  mnemonic : String
  params : List String
  /-- The operation that the mnemonic names. -/
  opcode : Option Opcode
  opcode_eq : opcode = Opcode.ofMnemonic? mnemonic
  deriving DecidableEq

namespace Instruction

/-- The line with a number, a mnemonic and parameters. -/
def ofMnemonic (line : LineNumber) (mnemonic : String) (params : List String) : Instruction where
  line
  mnemonic
  params
  opcode := Opcode.ofMnemonic? mnemonic
  opcode_eq := rfl

/-- Instructions with equal line, mnemonic and parameters are equal. -/
theorem ext {i j : Instruction} (hl : i.line = j.line) (hm : i.mnemonic = j.mnemonic)
    (hp : i.params = j.params) : i = j := by
  obtain ⟨_, _, _, o, ho⟩ := i
  obtain ⟨_, _, _, o', ho'⟩ := j
  simp only at hl hm hp ho ho'
  subst hl hm hp ho ho'
  rfl

/-- The instruction as a line of program text. -/
def display (i : Instruction) : String :=
  let head := toString i.line.toNat ++ " " ++ i.mnemonic
  if i.params.isEmpty then head else head ++ " " ++ ", ".intercalate i.params

/-- The instruction with all its parts named. -/
def inspect (i : Instruction) : String :=
  let operation :=
    match i.opcode with
    | some o => "Some(" ++ o.title ++ ")"
    | none => "None"
  "Instruction \x7b line_number: " ++ toString i.line.toNat ++
    ", mnemonic: " ++ Text.quoted i.mnemonic ++
    ", opcode: " ++ operation ++
    ", params: " ++ Text.bracketed (i.params.map Text.quoted) ++ " \x7d"

end Instruction

end Stackline
