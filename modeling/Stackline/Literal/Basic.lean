import Stackline.Literal.Number
import Stackline.Literal.Quoted
import Stackline.Text.Blank

/-!
# Literals

The parameters of a push and the lines of input are literals: a number, a text in quotes, `true`,
`false`, `null` or the bare word `NULL`. Lists and objects are read, so that a fault inside them is
reported where it is, and then refused.
-/

namespace Stackline

namespace Literal

/-- What a text between blanks denotes. -/
inductive Document where
  | scalar (v : Value)
  /-- A list or an object, well formed. -/
  | collection
  deriving DecidableEq

/-- The blanks between the parts of a literal. -/
def isSpace (c : Char) : Bool := c = ' ' || c = '\t' || c = '\n' || c = '\r'

/-- A text without the blanks in front. -/
def skipSpace (cs : List Char) : List Char := cs.dropWhile isSpace

/-- The two kinds of collection. -/
inductive Bracket where
  | list
  | object
  deriving DecidableEq, Repr

namespace Bracket

/-- The character that ends a collection. -/
def closer : Bracket → Char
  | list => ']'
  | object => '\x7d'

/-- The text ended inside a collection. -/
def unfinished : Bracket → Reason
  | list => .unfinishedList
  | object => .unfinishedObject

/-- Something else than a comma followed a member. -/
def expected : Bracket → Reason
  | list => .expectedInList
  | object => .expectedInObject

end Bracket

/-- The rest of a word that has begun, and its value. -/
def word (v : Value) : (expected : List Char) → List Char → Reading Value
  | [], cs => .ok (v, cs)
  | _ :: _, [] => stopAt .unfinishedValue []
  | e :: es, c :: cs => if c = e then word v es cs else stopIn .expectedWord (c :: cs)

/-- The key of a member of an object and the colon after it. -/
def key (cs : List Char) : Except Stop (List Char) :=
  match cs with
  | '"' :: body => do
    let (_, rest) ← quotedBody body
    match skipSpace rest with
    | [] => stopIn .unfinishedObject []
    | c :: after => if c = ':' then .ok after else stopIn .expectedColon (c :: after)
  | cs => stopIn .keyNotText cs

/-- The comma between two members, after which another member follows. -/
def comma (b : Bracket) (cs : List Char) : Except Stop (List Char) :=
  match cs with
  | ',' :: rest =>
    match skipSpace rest with
    | [] => stopIn .unfinishedValue []
    | c :: after =>
      if c = b.closer then stopIn .trailingComma (c :: after) else .ok (c :: after)
  | cs => stopIn b.expected cs

/-- The members of a collection up to its end, each read by `member`. At most `fuel` of them are
read; a text has no more members than characters. -/
def members (b : Bracket) (member : List Char → Reading Document) :
    (fuel : Nat) → (first : Bool) → List Char → Except Stop (List Char)
  | 0, _, cs => stopIn b.unfinished cs
  | fuel + 1, first, cs =>
    match skipSpace cs with
    | [] => stopIn b.unfinished []
    | c :: rest =>
      if c = b.closer then .ok rest
      else do
        let start ← if first then pure (c :: rest) else comma b (c :: rest)
        let value ← if b = .object then key start else pure start
        let (_, after) ← member value
        members b member fuel false after

/-- A value that is no collection. -/
def scalarOf : Reading Value → Reading Document
  | .ok (v, rest) => .ok (.scalar v, rest)
  | .error s => .error s

/-- Characters as a text. -/
def textOf : Reading (List Char) → Reading Document
  | .ok (cs, rest) => .ok (.scalar (.text (.ofList cs)), rest)
  | .error s => .error s

/-- A collection of which the first character has been passed. -/
def collectionOf (b : Bracket) (member : List Char → Reading Document) (cs : List Char) :
    Reading Document :=
  match members b member (cs.length + 1) true cs with
  | .ok rest => .ok (.collection, rest)
  | .error s => .error s

/-- A value, where `nested` reads the values inside a collection unless it would be nested too
deep. -/
def documentWith (nested : Option (List Char → Reading Document)) (cs : List Char) :
    Reading Document :=
  match skipSpace cs with
  | [] => stopIn .unfinishedValue []
  | c :: rest =>
    if c = 'n' then scalarOf (word .null ['u', 'l', 'l'] rest)
    else if c = 't' then scalarOf (word (.ofBool true) ['r', 'u', 'e'] rest)
    else if c = 'f' then scalarOf (word (.ofBool false) ['a', 'l', 's', 'e'] rest)
    else if c = '-' then scalarOf (number true rest)
    else if c.isDigit then scalarOf (number false (c :: rest))
    else if c = '"' then textOf (quotedBody rest)
    else if c = '[' ∨ c = '\x7b' then
      match nested with
      | some member => collectionOf (if c = '[' then .list else .object) member rest
      | none => stopIn .nestedTooDeep (c :: rest)
    else stopIn .expectedValue (c :: rest)

/-- A value in which collections may be nested `depth` deep. -/
def document : (depth : Nat) → List Char → Reading Document
  | 0 => documentWith none
  | depth + 1 => documentWith (some (document depth))

/-- How deep collections may be nested. -/
def greatestDepth : Nat := 127

/-- A value and nothing after it. -/
def wholeDocument (cs : List Char) : Except Stop Document := do
  let (d, rest) ← document greatestDepth cs
  match skipSpace rest with
  | [] => return d
  | left => stopIn .trailingCharacters left

/-- Why a text is not accepted as a literal. -/
inductive Fault where
  | malformed (text : String) (m : Malformed)
  | unsupported (text : String)
  deriving DecidableEq, Repr

/-- The fault in words. -/
def Fault.message : Fault → String
  | malformed text m => "BAD LITERAL " ++ text ++ ": " ++ m.message
  | unsupported text => "UNSUPPORTED LITERAL " ++ text

/-- The value of a literal, given without the blanks around it. -/
def readTrimmed (cs : List Char) : Except Fault Value :=
  if cs = ['N', 'U', 'L', 'L'] then .ok .null
  else
    match wholeDocument cs with
    | .ok (.scalar v) => .ok v
    | .ok .collection => .error (.unsupported (.ofList cs))
    | .error s => .error (.malformed (.ofList cs) (s.locate cs))

/-- The value that a text denotes, blanks around it apart. -/
def read (s : String) : Except Fault Value := readTrimmed (Text.trim s.toList)

end Literal

end Stackline
