import Stackline.Literal.Malformed

/-!
# Texts in literals

A text stands between double quotes. A backslash begins an escape: for a quote, a backslash or a
slash, for the controls backspace, form feed, newline, return and tab, or for a code unit in four
hexadecimal digits. Two code units form one character beyond the basic plane. Controls do not
stand for themselves.
-/

namespace Stackline.Literal

/-- The value of a hexadecimal digit of either case. -/
def hexValue (c : Char) : Option Nat :=
  if c.isDigit then some (c.toNat - '0'.toNat)
  else if 'a' ≤ c ∧ c ≤ 'f' then some (c.toNat - 'a'.toNat + 10)
  else if 'A' ≤ c ∧ c ≤ 'F' then some (c.toNat - 'A'.toNat + 10)
  else none

/-- The code unit written by four hexadecimal digits. -/
def hexUnit (a b c d : Char) : Option Nat :=
  match hexValue a, hexValue b, hexValue c, hexValue d with
  | some a, some b, some c, some d => some (((a * 16 + b) * 16 + c) * 16 + d)
  | _, _, _, _ => none

/-- Whether a code unit is the first of a pair. -/
def isHighUnit (n : Nat) : Bool := 0xd800 ≤ n && n < 0xdc00

/-- Whether a code unit is the second of a pair. -/
def isLowUnit (n : Nat) : Bool := 0xdc00 ≤ n && n < 0xe000

/-- The character of a pair of code units. -/
def pairChar (high low : Nat) : Char := .ofNat (0x10000 + (high - 0xd800) * 0x400 + (low - 0xdc00))

/-- Where four hexadecimal digits were expected in front of `cs` and are not: the text ends within
four bytes, or these hold something else. -/
def noHexUnit {α : Type} (cs : List Char) : Except Stop α :=
  if byteSize cs < 4 then stopAt .unfinishedText [] else .error ⟨.invalidEscape, cs, 4⟩

/-- The character after a backslash that an escape of two characters stands for. -/
def shortEscape (c : Char) : Option Char :=
  if c = '"' ∨ c = '\\' ∨ c = '/' then some c
  else if c = 'b' then some '\x08'
  else if c = 'f' then some '\x0c'
  else if c = 'n' then some '\n'
  else if c = 'r' then some '\r'
  else if c = 't' then some '\t'
  else none

/-- Put a character in front of a text that was read. -/
def consRead (c : Char) : Reading (List Char) → Reading (List Char)
  | .ok (cs, rest) => .ok (c :: cs, rest)
  | .error s => .error s

/-- The characters up to the closing quote. -/
def quotedBody : List Char → Reading (List Char)
  | [] => stopAt .unfinishedText []
  | c :: cs =>
    if c = '"' then .ok ([], cs)
    else if c = '\\' then
      match cs with
      | [] => stopAt .unfinishedText []
      | e :: es =>
        if e = 'u' then
          match es with
          | a :: b :: c :: d :: rest =>
            match hexUnit a b c d with
            | none => noHexUnit es
            | some n =>
              if isLowUnit n then stopAt .loneSurrogate rest
              else if isHighUnit n then
                match rest with
                | [] => stopAt .unfinishedText []
                | x :: [] =>
                  if x = '\\' then stopAt .unfinishedText [] else stopIn .unfinishedPair rest
                | x :: y :: more =>
                  if x ≠ '\\' then stopIn .unfinishedPair rest
                  else if y ≠ 'u' then stopIn .unfinishedPair (y :: more)
                  else
                    match more with
                    | a' :: b' :: c' :: d' :: rest' =>
                      match hexUnit a' b' c' d' with
                      | none => noHexUnit more
                      | some m =>
                        if isLowUnit m then consRead (pairChar n m) (quotedBody rest')
                        else stopAt .loneSurrogate rest'
                    | _ => noHexUnit more
              else consRead (.ofNat n) (quotedBody rest)
          | _ => noHexUnit es
        else
          match shortEscape e with
          | some x => consRead x (quotedBody es)
          | none => stopIn .invalidEscape cs
    else if c.toNat < 0x20 then stopIn .controlCharacter (c :: cs)
    else consRead c (quotedBody cs)

end Stackline.Literal
