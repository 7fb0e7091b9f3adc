/-!
# Malformed literals

Why a text is no literal, and where. A reader works on what is left of the text, so it reports the
rest at which it stopped and how many bytes past that point the fault lies; `Stop.locate` turns
this into a line and a column. Columns count bytes of UTF-8 after the last newline.
-/

namespace Stackline.Literal

/-- What is wrong with a literal. -/
inductive Reason where
  | unfinishedValue | unfinishedText | unfinishedList | unfinishedObject
  | expectedWord | expectedValue | expectedColon
  | expectedInList | expectedInObject
  | trailingComma | trailingCharacters
  | invalidNumber | numberTooLarge
  | invalidEscape | unfinishedPair | loneSurrogate | controlCharacter
  | keyNotText | nestedTooDeep
  deriving DecidableEq, Repr

/-- The wording of a reason. -/
def Reason.message : Reason → String
  | unfinishedValue => "EOF while parsing a value"
  | unfinishedText => "EOF while parsing a string"
  | unfinishedList => "EOF while parsing a list"
  | unfinishedObject => "EOF while parsing an object"
  | expectedWord => "expected ident"
  | expectedValue => "expected value"
  | expectedColon => "expected `:`"
  | expectedInList => "expected `,` or `]`"
  | expectedInObject => "expected `,` or `\x7d`"
  | trailingComma => "trailing comma"
  | trailingCharacters => "trailing characters"
  | invalidNumber => "invalid number"
  | numberTooLarge => "number out of range"
  | invalidEscape => "invalid escape"
  | unfinishedPair => "unexpected end of hex escape"
  | loneSurrogate => "lone leading surrogate in hex escape"
  | controlCharacter => "control character (\\u0000-\\u001F) found while parsing a string"
  | keyNotText => "key must be a string"
  | nestedTooDeep => "recursion limit exceeded"

/-- Where and why reading stopped: `past` bytes into `rest`. -/
structure Stop where
  reason : Reason
  rest : List Char
  past : Nat
  deriving DecidableEq, Repr

/-- The result of reading a part of a literal: what was read, and the rest. -/
abbrev Reading (α : Type) := Except Stop (α × List Char)

/-- Reading stopped at the end of what was consumed, before `rest`. -/
def stopAt {α : Type} (reason : Reason) (rest : List Char) : Except Stop α :=
  .error ⟨reason, rest, 0⟩

/-- Reading stopped one byte into `rest`. -/
def stopIn {α : Type} (reason : Reason) (rest : List Char) : Except Stop α :=
  .error ⟨reason, rest, 1⟩

/-- The length of a text in bytes. -/
def byteSize (cs : List Char) : Nat := cs.foldl (fun n c => n + c.utf8Size) 0

/-- Line and column after `offset` bytes of a text, counted on from a line and a column. An offset
beyond the end is the end. -/
def position (line column : Nat) : List Char → (offset : Nat) → Nat × Nat
  | [], _ => (line, column)
  | c :: cs, offset =>
    if offset < c.utf8Size then (line, column + offset)
    else if c = '\n' then position (line + 1) 0 cs (offset - c.utf8Size)
    else position line (column + c.utf8Size) cs (offset - c.utf8Size)

/-- A reason and its place. -/
structure Malformed where
  reason : Reason
  line : Nat
  column : Nat
  deriving DecidableEq, Repr

/-- The place in `text` of a stop. -/
def Stop.locate (text : List Char) (s : Stop) : Malformed :=
  let (line, column) := position 1 0 text (byteSize text - byteSize s.rest + s.past)
  ⟨s.reason, line, column⟩

/-- A reason and its place in words. -/
def Malformed.message (m : Malformed) : String :=
  m.reason.message ++ " at line " ++ toString m.line ++ " column " ++ toString m.column

end Stackline.Literal
