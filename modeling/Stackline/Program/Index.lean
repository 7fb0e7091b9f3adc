import Std.Data.TreeMap
import Stackline.Program.Basic

/-!
# Lines and their positions

A jump names a line, which may be any integer. A line that exists is looked up; anything else leads
to the first line after it, which a search among the ascending lines finds.
-/

namespace Stackline

/-- Where the lines of a program are. -/
structure LineIndex where
  /-- The position of each line. -/
  positions : Std.TreeMap LineNumber Nat
  /-- The lines in order. -/
  lines : Array LineNumber

namespace LineIndex

/-- The index of a program. -/
def ofProgram (p : Program) : LineIndex where
  positions := .ofList p.lines.zipIdx
  lines := p.lines.toArray

/-- The position of a line that exists. Only what fits a line number is looked up. -/
def positionOf? (x : LineIndex) (target : Int) : Option Nat :=
  if 0 ≤ target ∧ target < UInt32.size then x.positions[UInt32.ofNat target.toNat]? else none

/-- The first position from `lo` up to `hi` whose line fails a test, found by halving. The lines that
pass have to come first. -/
def partitionPoint (x : LineIndex) (test : LineNumber → Bool) (lo hi : Nat) : Nat :=
  if lo < hi then
    let mid := (lo + hi) / 2
    match x.lines[mid]? with
    | some n => if test n then x.partitionPoint test (mid + 1) hi else x.partitionPoint test lo mid
    | none => lo
  else lo
termination_by hi - lo
decreasing_by all_goals omega

/-- The first position whose line is after a target. -/
def following? (x : LineIndex) (target : Int) : Option Nat :=
  let k := x.partitionPoint (fun n => n.toNat ≤ target) 0 x.lines.size
  if k < x.lines.size then some k else none

/-- The position that a jump to a target goes to: that of the line itself, or of the first line after
it. -/
def resolve (x : LineIndex) (target : Int) : Option Nat :=
  match x.positionOf? target with
  | some k => some k
  | none => x.following? target

end LineIndex

end Stackline
