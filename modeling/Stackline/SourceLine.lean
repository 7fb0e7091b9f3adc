import Stackline.Event
import Stackline.Number.Digits
import Stackline.Program.Basic
import Stackline.Text.Blank
import Stackline.Text.Lines
import Stackline.Text.Word

/-!
# Lines of program text

A line of program text is a number, a mnemonic and parameters between commas. From the word `REM`
and a space on it is a comment. Lines that do not look like this are no part of the program.
Commas inside a text in quotes do not part parameters; inside such a text two quotes stand for
one.
-/

namespace Stackline

namespace SourceLine

open Text Number

/-! ### Parameters -/

/-- The number of characters through the end of a text in quotes whose first quote has been passed:
the end is a quote that is not followed by another. -/
def closing? : List Char → Option Nat
  | [] => none
  | c :: cs =>
    if c = '"' then
      match cs with
      | [] => some 1
      | d :: ds => if d = '"' then (closing? ds).map (· + 2) else some 1
    else (closing? cs).map (· + 1)

/-- The length of a complete text in quotes at the start of some characters. -/
def quotedLength? : List Char → Option Nat
  | [] => none
  | c :: cs => if c = '"' then (closing? cs).map (· + 1) else none

/-- Put a character in front of the first piece. -/
def consFirst (c : Char) : List (List Char) → List (List Char)
  | [] => [[c]]
  | p :: ps => (c :: p) :: ps

/-- The pieces between commas. The next `skip` characters belong to a text in quotes and part
nothing. -/
def pieces : (skip : Nat) → List Char → List (List Char)
  | _, [] => [[]]
  | skip + 1, c :: cs => consFirst c (pieces skip cs)
  | 0, c :: cs =>
    match quotedLength? (c :: cs) with
    | some n => consFirst c (pieces (n - 1) cs)
    | none => if c = ',' then [] :: pieces 0 cs else consFirst c (pieces 0 cs)

/-- The parameters in a text: the pieces between commas without the blanks around them, and without
those that are then empty. -/
def params (cs : List Char) : List (List Char) :=
  ((pieces 0 cs).map trim).filter fun p => !p.isEmpty

/-! ### Comments -/

/-- What begins a comment. -/
def remark : List Char := ['R', 'E', 'M', ' ']

/-- What stands before a comment, if there is one. It begins the text, if `start`, or follows a
blank. -/
def beforeRemark? (start : Bool) : List Char → Option (List Char)
  | [] => none
  | c :: cs =>
    if start && remark.isPrefixOf (c :: cs) then some []
    else (beforeRemark? (isBlank c) cs).map (c :: ·)

/-- A text without its comment and the blanks before that. -/
def withoutRemark (cs : List Char) : List Char :=
  match beforeRemark? true cs with
  | some before => trimEnd before
  | none => cs

end SourceLine

/-- What a line of program text holds. -/
inductive SourceLine where
  /-- No instruction. -/
  | other
  /-- A number that is too great for a line. -/
  | outOfRange (digits : List Char)
  | instruction (i : Instruction)
  deriving DecidableEq

namespace SourceLine

open Text Number

/-- The part of a line after its number. -/
def ofBody (line : LineNumber) (cs : List Char) : SourceLine :=
  let (mnemonic, after) := (withoutRemark (trimStart cs)).span isWordChar
  let make (ps : List (List Char)) : SourceLine :=
    instruction (.ofMnemonic line (.ofList mnemonic) (ps.map .ofList))
  if mnemonic.isEmpty then other
  else
    match after with
    | [] => make []
    | c :: _ => if isBlank c then make (params after) else other

/-- What a line of program text holds. -/
def ofChars (cs : List Char) : SourceLine :=
  let (digits, rest) := spanDigits (trimStart cs)
  if digits.isEmpty then other
  else if natOf digits < UInt32.size then ofBody (.ofNat (natOf digits)) rest
  else outOfRange digits

/-- The instruction on a line. -/
def instruction? : SourceLine → Option Instruction
  | instruction i => some i
  | _ => none

/-- What is remarkable about a line. -/
def warning? : SourceLine → Option Event
  | other => none
  | outOfRange digits => some (.lineOutOfRange (.ofList digits))
  | instruction i => if i.opcode.isNone then some (.unknownInstruction i.line i.mnemonic) else none

/-- The lines of program text. -/
def all (source : String) : List SourceLine := (lines source.toList).map ofChars

end SourceLine

namespace Program

/-- The program that a text holds. -/
def ofSource (source : String) : Program :=
  ofInstructions ((SourceLine.all source).filterMap SourceLine.instruction?)

/-- What is remarkable about a text as a program, in the order of its lines. -/
def warnings (source : String) : List Event :=
  (SourceLine.all source).filterMap SourceLine.warning?

end Program

end Stackline
