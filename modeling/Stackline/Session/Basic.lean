import Stackline.Session.Call
import Stackline.SourceLine

/-!
# Sessions

A host holds a machine and a token to cancel its runs, and may handle operations in its own way. It
does so by *actions*: it calls the machine, drives it, and installs handlers, which are actions
again. A handler takes the place of the built-in meaning of an operation; it ends at the first
action that fails. Handlers may drive the machine in turn, so nothing bounds what an action does; it
is given an amount of fuel, and gives no result if that is used up.
-/

namespace Stackline

/-- What a host does. -/
inductive Action where
  | call (c : Call)
  /-- Make a step. -/
  | step
  /-- Make at most so many steps while the machine is running. -/
  | steps (n : Nat)
  | run
  | runCooperatively (paced : Bool)
  | cancel
  | isCancelled
  /-- Do something if there are exactly so many operands. -/
  | whenDepth (n : Nat) (body : List Action)
  | setHandler (o : Opcode) (body : List Action)
  | removeHandler (o : Opcode)

/-- A machine with what a host adds to it. -/
structure Session where
  machine : Machine
  handlers : List (Opcode × List Action) := []
  token : Token := {}

namespace Session

/-- The result of something done in a session, and the session afterwards. -/
abbrev Result (α : Type) := EStateM.Result Error Session α

/-- A session before the first action, in which the warnings about the program text have been
noted. -/
def start (text : String) (source : Source) (sink : Sink) : Session where
  machine :=
    { Machine.start (Program.ofSource text) source sink with
      log := (Program.warnings text).toArray }

/-- The handler for an operation. -/
def handler? (s : Session) (o : Opcode) : Option (List Action) := s.handlers.lookup o

/-- Install a handler in place of any other. -/
def setHandler (s : Session) (o : Opcode) (body : List Action) : Session :=
  { s with handlers := (o, body) :: s.handlers.filter fun h => h.1 ≠ o }

/-- Go back to the built-in meaning. -/
def removeHandler (s : Session) (o : Opcode) : Session :=
  { s with handlers := s.handlers.filter fun h => h.1 ≠ o }

/-- What a machine does, done in a session. -/
def lift {α : Type} (act : Act α) (s : Session) : Result α :=
  match act s.machine with
  | .ok a machine => .ok a { s with machine }
  | .error e machine => .error e { s with machine }

/-- The same result with another value. -/
def reply {α : Type} (f : α → Reply) : Result α → Result Reply
  | .ok a s => .ok (f a) s
  | .error e s => .error e s

/-- What becomes of a session in which an instruction has been handled. -/
def conclude (i : Instruction) : Result Unit → Result Unit
  | .ok () s => s.lift fun m => Machine.conclude i (.ok () m)
  | .error e s => s.lift fun m => Machine.conclude i (.error e m)

mutual

/-- Make a step, by the handler of the operation if there is one. -/
def step : (fuel : Nat) → Session → Option (Result Unit)
  | 0, _ => none
  | fuel + 1, s =>
    match s.machine.fetch? with
    | none => some (.ok () s)
    | some i =>
      match i.opcode.bind s.handler? with
      | none => some (s.lift Machine.step)
      | some body =>
        (performAll fuel body { s with machine := s.machine.begin i }).map (conclude i)

/-- Make at most `n` steps while the machine is running. Gives how many were made, with those
made before. -/
def steps : (fuel : Nat) → (made n : Nat) → Session → Option (Result Nat)
  | 0, _, _, _ => none
  | _ + 1, made, 0, s => some (.ok made s)
  | fuel + 1, made, n + 1, s =>
    if s.machine.isRunning then
      match step fuel s with
      | none => none
      | some (.error e s) => some (.error e s)
      | some (.ok () s) => steps fuel (made + 1) n s
    else some (.ok made s)

/-- Run to the end. -/
def run : (fuel : Nat) → Session → Option (Result Unit)
  | 0, _ => none
  | fuel + 1, s =>
    if s.machine.isRunning then
      match step fuel s with
      | none => none
      | some (.error e s) => some (.error e s)
      | some (.ok () s) => run fuel s
    else some (s.lift Machine.endRun)

/-- Run cooperatively to the end. -/
def runCooperatively (paced : Bool) : (fuel : Nat) → Session → Option (Result Bool)
  | 0, _ => none
  | fuel + 1, s =>
    let s := { s with machine := s.machine.heed s.token.isCancelled, token := s.token.tick }
    if s.machine.isRunning then
      match step fuel s with
      | none => none
      | some (.error e s) => some (.error e s)
      | some (.ok () s) =>
        match s.lift (Machine.pause paced) with
        | .error e s => some (.error e s)
        | .ok () s => runCooperatively paced fuel s
    else some (s.lift Machine.endCooperativeRun)

/-- Perform an action. -/
def perform : (fuel : Nat) → Action → Session → Option (Result Reply)
  | 0, _, _ => none
  | fuel + 1, a, s =>
    match a with
    | .step => (step fuel s).map (reply fun _ => .done)
    | .steps n => (steps fuel 0 n s).map (reply .count)
    | .run => (run fuel s).map (reply fun _ => .done)
    | .runCooperatively paced => (runCooperatively paced fuel s).map (reply .flag)
    | .call c => some (s.lift c.act)
    | .cancel => some (.ok .done { s with token := s.token.cancel })
    | .isCancelled => some (.ok (.flag s.token.isCancelled) s)
    | .whenDepth n body =>
      if s.machine.operands.size = n then (performAll fuel body s).map (reply fun _ => .done)
      else some (.ok .done s)
    | .setHandler o body => some (.ok .done (s.setHandler o body))
    | .removeHandler o => some (.ok (.flag (s.handler? o).isSome) (s.removeHandler o))

/-- Perform actions in order, up to the first that fails. -/
def performAll : (fuel : Nat) → List Action → Session → Option (Result Unit)
  | 0, _, _ => none
  | _ + 1, [], s => some (.ok () s)
  | fuel + 1, a :: rest, s =>
    match perform fuel a s with
    | none => none
    | some (.error e s) => some (.error e s)
    | some (.ok _ s) => performAll fuel rest s

end

end Session

end Stackline
