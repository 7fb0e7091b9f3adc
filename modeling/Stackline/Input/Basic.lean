import Stackline.Exchange
import Stackline.Input.Source
import Stackline.Text.Blank
import Stackline.Text.Lines

/-!
# Input

Input is read by characters, lines and words. A character that was read may be given back; such
characters come first when reading goes on, the one given back last in front. When the host fails,
the characters gathered so far for a line or a word are lost.
-/

namespace Stackline

/-- Characters given back, the latest first, and the host. -/
structure Input where
  source : Source
  pushback : List Char := []
  deriving DecidableEq, Repr

namespace Input

/-- A bound on the characters that are left, which bounds how often reading can go on. -/
def remaining (i : Input) : Nat := i.pushback.length + i.source.remaining

/-- The next character, or none at the end of input. -/
def readChar (i : Input) : Except Failure (Option Char) × Input :=
  match i.pushback with
  | c :: cs => (.ok (some c), { i with pushback := cs })
  | [] =>
    let (answer, source) := i.source.readChar
    (answer, { i with source })

/-- Reading a character leaves less to read. -/
theorem remaining_readChar {i j : Input} {c : Char} (h : i.readChar = (.ok (some c), j)) :
    j.remaining < i.remaining := by
  unfold readChar at h
  split at h
  · next hp =>
    cases h
    simp [remaining, hp]
  · next hp =>
    rcases hr : i.source.readChar with ⟨answer, source⟩
    rw [hr] at h
    cases h
    have hlt := Source.remaining_readChar hr
    simp only [remaining, hp]
    omega

/-- Give a character back. -/
def unread (i : Input) (c : Char) : Input := { i with pushback := c :: i.pushback }

/-- Offer a prompt to the host: what it shows, and whether it fails. -/
def prompt (i : Input) (s : String) : List Exchange × Except Failure Unit :=
  match i.source.prompting with
  | .ignored => ([], .ok ())
  | .shown => ([.prompt s], .ok ())
  | .failing f => ([.prompt s], .error f)

/-- A line from the characters gathered in reverse, less one final carriage return. -/
def finishLine (gathered : List Char) : String := .ofList (Text.withoutReturn gathered)

/-- The rest of a line of which some characters have been gathered. At the end of input there is no
line unless some have. -/
def lineFrom (gathered : List Char) (i : Input) : Except Failure (Option String) × Input :=
  match _h : i.readChar with
  | (.error f, j) => (.error f, j)
  | (.ok none, j) => (.ok (if gathered.isEmpty then none else some (finishLine gathered)), j)
  | (.ok (some c), j) =>
    if c = '\n' then (.ok (some (finishLine gathered)), j) else lineFrom (c :: gathered) j
termination_by i.remaining
decreasing_by exact remaining_readChar _h

/-- One line without its end, or none if input is at its end. -/
def readLine (i : Input) : Except Failure (Option String) × Input := lineFrom [] i

/-- The rest of a word of which some characters have been gathered in reverse. The blank after it is
given back. -/
def wordFrom (gathered : List Char) (i : Input) : Except Failure (Option String) × Input :=
  match _h : i.readChar with
  | (.error f, j) => (.error f, j)
  | (.ok none, j) => (.ok (some (.ofList gathered.reverse)), j)
  | (.ok (some c), j) =>
    if Text.isBlank c then (.ok (some (.ofList gathered.reverse)), j.unread c)
    else wordFrom (c :: gathered) j
termination_by i.remaining
decreasing_by exact remaining_readChar _h

/-- One word after any blanks, or none if input ends before it. -/
def readWord (i : Input) : Except Failure (Option String) × Input :=
  match _h : i.readChar with
  | (.error f, j) => (.error f, j)
  | (.ok none, j) => (.ok none, j)
  | (.ok (some c), j) => if Text.isBlank c then readWord j else wordFrom [c] j
termination_by i.remaining
decreasing_by exact remaining_readChar _h

end Input

end Stackline
