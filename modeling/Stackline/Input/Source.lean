/-!
# Sources of input

A host is asked for one character at a time. The characters come from a text that is there from the
start, from bytes, or from a script of answers. Bytes are read line by line, each time the line
before is used up, and a line that is not UTF-8 is one failure. A script may also fail, and may seem
to be at its end before it is.
-/

namespace Stackline

/-- Input or output failed, and the host says why. -/
structure Failure where
  message : String
  deriving DecidableEq, Repr

/-- One answer of a host that was asked for a character. -/
inductive Delivery where
  | char (c : Char)
  | endOfInput
  | failure (f : Failure)
  deriving DecidableEq, Repr

/-- What an answer says: the next character, or none at the end of input. -/
def Delivery.answer : Delivery → Except Failure (Option Char)
  | char c => .ok (some c)
  | endOfInput => .ok none
  | failure f => .error f

/-- What a host does with a prompt. -/
inductive Prompting where
  /-- Prompts are not shown. -/
  | ignored
  | shown
  /-- Prompts are shown, and then the host fails. -/
  | failing (f : Failure)
  deriving DecidableEq, Repr

/-! ### Bytes -/

/-- Bytes that have not been read, and what is left of the line read last. -/
structure LineReader where
  bytes : List UInt8
  line : List Char := []
  deriving DecidableEq, Repr

namespace LineReader

/-- The failure to read bytes as text. -/
def notText : Failure := ⟨"stream did not contain valid UTF-8"⟩

/-- The bytes up to the next newline and with it, and those after it. -/
def spanLine : List UInt8 → List UInt8 × List UInt8
  | [] => ([], [])
  | b :: bs =>
    if b = 10 then ([b], bs)
    else
      let (line, rest) := spanLine bs
      (b :: line, rest)

theorem spanLine_append (bs : List UInt8) : (spanLine bs).1 ++ (spanLine bs).2 = bs := by
  induction bs with
  | nil => rfl
  | cons b bs ih =>
    rw [spanLine]
    split
    · rfl
    · exact congrArg (b :: ·) ih

/-- The characters of a line of bytes, if it is UTF-8. -/
def decode? (line : List UInt8) : Option (List Char) :=
  (String.fromUTF8? line.toByteArray).map String.toList

/-- The bytes of characters in UTF-8. -/
def encode (cs : List Char) : List UInt8 := cs.flatMap String.utf8EncodeChar

theorem eq_encode_of_decode? {line : List UInt8} {cs : List Char} (h : decode? line = some cs) :
    line = encode cs := by
  obtain ⟨s, hs, rfl⟩ := Option.map_eq_some_iff.mp h
  have hbytes : s.toByteArray = line.toByteArray := by
    unfold String.fromUTF8? at hs
    split at hs
    · cases hs
      rfl
    · cases hs
  have hdata := congrArg (fun b => b.data.toList) (String.utf8Encode_toList.trans hbytes)
  simpa [List.utf8Encode, encode] using hdata.symm

/-- Every character takes a byte or more. -/
theorem length_le_encode (cs : List Char) : cs.length ≤ (encode cs).length := by
  induction cs with
  | nil => exact Nat.le_refl 0
  | cons c cs ih =>
    have hc := c.utf8Size_pos
    rw [encode, List.flatMap_cons, List.length_append, String.length_utf8EncodeChar, ← encode,
      List.length_cons]
    omega

/-- The next character. When the line is used up the next one is read. -/
def readChar (r : LineReader) : Except Failure (Option Char) × LineReader :=
  match r.line with
  | c :: cs => (.ok (some c), { r with line := cs })
  | [] =>
    if r.bytes.isEmpty then (.ok none, r)
    else
      let (line, rest) := spanLine r.bytes
      match decode? line with
      | some cs => (.ok cs.head?, ⟨rest, cs.tail⟩)
      | none => (.error notText, ⟨rest, []⟩)

/-- A bound on the characters that are left. -/
def remaining (r : LineReader) : Nat := r.line.length + r.bytes.length

theorem remaining_readChar {r s : LineReader} {c : Char} (h : r.readChar = (.ok (some c), s)) :
    s.remaining < r.remaining := by
  unfold readChar at h
  split at h
  · next hl =>
    cases h
    simp [remaining, hl]
  · next hl =>
    split at h
    · cases h
    · simp only at h
      split at h
      · next cs hd =>
        have hsplit := congrArg List.length (spanLine_append r.bytes)
        have hle := length_le_encode cs
        rw [← eq_encode_of_decode? hd] at hle
        cases cs with
        | nil => cases h
        | cons c cs =>
          cases h
          simp only [remaining, List.length_append, List.length_cons, List.tail_cons] at *
          omega
      · cases h

end LineReader

/-! ### Hosts -/

/-- Where characters come from. -/
inductive Feed where
  /-- A text that is there from the start. -/
  | text (cs : List Char)
  /-- Bytes, line by line. -/
  | lines (r : LineReader)
  /-- Answers in a row, after which input is at its end for good. -/
  | script (ds : List Delivery)
  deriving DecidableEq, Repr

/-- A host as a source of characters. -/
structure Source where
  feed : Feed
  prompting : Prompting := .ignored
  deriving DecidableEq, Repr

namespace Source

/-- The next character, or none at the end of input. -/
def readChar (s : Source) : Except Failure (Option Char) × Source :=
  match s.feed with
  | .text [] => (.ok none, s)
  | .text (c :: cs) => (.ok (some c), { s with feed := .text cs })
  | .lines r =>
    let (answer, r) := r.readChar
    (answer, { s with feed := .lines r })
  | .script [] => (.ok none, s)
  | .script (d :: ds) => (d.answer, { s with feed := .script ds })

/-- A bound on the characters that are left. -/
def remaining (s : Source) : Nat :=
  match s.feed with
  | .text cs => cs.length
  | .lines r => r.remaining
  | .script ds => ds.length

theorem remaining_readChar {s t : Source} {c : Char} (h : s.readChar = (.ok (some c), t)) :
    t.remaining < s.remaining := by
  obtain ⟨feed, prompting⟩ := s
  cases feed with
  | text cs =>
    cases cs with
    | nil => cases h
    | cons c cs =>
      cases h
      exact Nat.lt_succ_self _
  | lines r =>
    obtain ⟨ha, ht⟩ := Prod.mk.inj h
    subst ht
    exact LineReader.remaining_readChar (Prod.ext ha rfl)
  | script ds =>
    cases ds with
    | nil => cases h
    | cons d ds =>
      obtain ⟨-, ht⟩ := Prod.mk.inj h
      subst ht
      exact Nat.lt_succ_self _

/-- The characters of a text. -/
def ofText (s : String) : Source := { feed := .text s.toList }

/-- The characters of bytes in UTF-8. -/
def ofBytes (bytes : ByteArray) : Source := { feed := .lines { bytes := bytes.data.toList } }

/-- What a script of a host delivers at once. -/
inductive Item where
  | chars (s : String)
  | endOfInput
  | failure (f : Failure)
  deriving DecidableEq, Repr

/-- The answers that an item stands for. -/
def Item.deliveries : Item → List Delivery
  | chars s => s.toList.map .char
  | endOfInput => [.endOfInput]
  | failure f => [.failure f]

/-- A host that shows prompts and follows a script. -/
def ofScript (items : List Item) (promptFailure : Option Failure := none) : Source where
  feed := .script (items.flatMap Item.deliveries)
  prompting :=
    match promptFailure with
    | some f => .failing f
    | none => .shown

end Source

end Stackline
