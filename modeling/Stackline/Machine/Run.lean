import Stackline.Machine.Step

/-!
# Runs

A run makes steps until the machine stops running. Nothing bounds the number of steps, so a run has
a number of steps that it may make, and gives no result if they are used up. A cooperative run looks
before each step whether it has been cancelled, and may pause after a step, for which output is
brought out.
-/

namespace Stackline

/-- A request to cancel, which is seen once it has been looked for so many times more; never, if
there is no such number. -/
structure Token where
  due : Option Nat := none
  deriving DecidableEq, Repr

namespace Token

/-- The request as it is seen from now on. -/
def cancel (_ : Token) : Token := ⟨some 0⟩

/-- Whether the request is seen now. -/
def isCancelled (t : Token) : Bool := t.due = some 0

/-- The request after it has been looked for. -/
def tick (t : Token) : Token := ⟨t.due.map (· - 1)⟩

end Token

namespace Machine

/-- The end of a run. -/
def endRun : Act Unit := do
  flush
  modify fun m => m.note (.finished m.killed)

/-- The end of a cooperative run: whether the machine was stopped before the end of its program. -/
def endCooperativeRun : Act Bool := do
  endRun
  return (← get).killed

/-- Stop if cancelled, unless the machine has been stopped before. -/
def heed (m : Machine) (cancelled : Bool) : Machine :=
  if cancelled && !m.killed then (m.note (.cancelled m.pc)).kill else m

/-- A pause between two steps. -/
def pause (paced : Bool) : Act Unit := fun m =>
  if paced && m.isRunning then flush m else .ok () m

/-- Run for at most `fuel` steps. -/
def run (fuel : Nat) (m : Machine) : Option (EStateM.Result Error Machine Unit) :=
  if m.isRunning then
    match fuel with
    | 0 => none
    | fuel + 1 =>
      match step m with
      | .ok () m => run fuel m
      | .error e m => some (.error e m)
  else some (endRun m)

/-- Run cooperatively for at most `fuel` steps. -/
def runCooperatively (paced : Bool) (fuel : Nat) (token : Token) (m : Machine) :
    Option (EStateM.Result Error Machine Bool) :=
  let m := m.heed token.isCancelled
  if m.isRunning then
    match fuel with
    | 0 => none
    | fuel + 1 =>
      match (step *> pause paced) m with
      | .ok () m => runCooperatively paced fuel token.tick m
      | .error e m => some (.error e m)
  else some (endCooperativeRun m)

end Machine

end Stackline
