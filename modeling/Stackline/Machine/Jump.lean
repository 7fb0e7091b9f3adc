import Stackline.Machine.Basic

/-!
# Jumps

The target of a jump is a line number. It is written as the first parameter of an instruction, as
itself or as a reference to an operand. A jump for which there is no line ends the program.
-/

namespace Stackline.Machine

/-- Go to the end of the program. -/
def jumpToEnd (m : Machine) : Machine := { m with pc := m.program.size, branched := true }

/-- Go to a line, or to the first one after it. If `settled` the instruction there is the next one
to execute; otherwise the step that is under way still moves on past it. -/
def jumpToLine (m : Machine) (target : Int) (settled : Bool) : Machine :=
  match m.index.resolve target with
  | some position => { m with pc := position, branched := settled }
  | none => (m.note (.noSuchLine target)).jumpToEnd

/-- The depth in a reference: an unsigned number of 64 bits, with an optional plus sign. -/
def depth? (cs : List Char) : Option Nat :=
  let digits :=
    match Text.trim cs with
    | '+' :: rest => rest
    | rest => rest
  if digits.isEmpty || !digits.all Char.isDigit then none
  else
    let n := Number.natOf digits
    if n < UInt64.size then some n else none

/-- The value that a parameter refers to: `@n` is the operand at depth `n`, and `$n` takes it out;
anything else stands for itself. -/
def reference (m : Machine) (param : String) : Option Value × Machine :=
  match Text.trim param.toList with
  | '@' :: rest => ((depth? rest).bind m.operands.peek?, m)
  | '$' :: rest =>
    match depth? rest with
    | some depth =>
      let (v, operands) := m.operands.remove? depth
      (v, { m with operands })
    | none => (none, m)
  | token => (some (.text (.ofList token)), m)

/-- The first parameter of the current instruction. -/
def target? (m : Machine) : Option String := m.current.bind fun i => i.params.head?

/-- Jump to the line that the first parameter refers to, or to the end if it gives none. -/
def jump (m : Machine) : Machine :=
  match m.target? with
  | none => (m.note (.noTarget none)).jumpToEnd
  | some param =>
    match m.reference param with
    | (some v, m) =>
      match v.toInteger? with
      | some n => m.jumpToLine n.toInt true
      | none => (m.note (.noTarget (some param))).jumpToEnd
    | (none, m) => (m.note (.noTarget (some param))).jumpToEnd

end Stackline.Machine
