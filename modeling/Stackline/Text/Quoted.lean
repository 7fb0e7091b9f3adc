import Stackline.Text.Shown

/-!
# Text in quotes

How a text is shown inside a message: in double quotes, with a backslash before a quote or another
backslash, short escapes for the common controls, and the code point in braces for every other
character that cannot be shown.
-/

namespace Stackline.Text

/-- A code point in lower-case hexadecimal. -/
def hexOf (c : Char) : List Char := Nat.toDigits 16 c.toNat

/-- One character of a quoted text. -/
def quotedChar (c : Char) : List Char :=
  if c = '"' ∨ c = '\\' then ['\\', c]
  else if c = '\n' then ['\\', 'n']
  else if c = '\r' then ['\\', 'r']
  else if c = '\t' then ['\\', 't']
  else if c = '\x00' then ['\\', '0']
  else if isShown c then [c]
  else '\\' :: 'u' :: '\x7b' :: (hexOf c ++ ['\x7d'])

/-- A text in quotes. -/
def quoted (s : String) : String :=
  .ofList ('"' :: (s.toList.flatMap quotedChar ++ ['"']))

/-- A list of texts, each already written, in brackets. -/
def bracketed (items : List String) : String :=
  "[" ++ ", ".intercalate items ++ "]"

end Stackline.Text
