import Stackline.Proofs.Machine.Run
import Stackline.Proofs.Session.Simulation
import Stackline.Proofs.Session.Stopped

/-!
# Sessions without handlers

If the host handles no operation in its own way, the session does what its machine does.  This holds
of steps (`step_of_no_handlers`), of runs (`run_of_no_handlers`) and of cooperative runs
(`runCooperatively_of_no_handlers`).  A run of a session takes one unit of fuel more than one of
the machine, which counts the steps only.
-/

namespace Stackline.Session

variable {α : Type} {s : Session}

/-- The result as one of the machine. -/
def onMachine : Result α → EStateM.Result Error Machine α
  | .ok a s => .ok a s.machine
  | .error e s => .error e s.machine

theorem onMachine_lift (act : Act α) (s : Session) : onMachine (s.lift act) = act s.machine := by
  unfold lift
  cases act s.machine <;> rfl

/-- Without handlers, no operation is handled by the host. -/
theorem bind_handler?_of_no_handlers (hs : s.handlers = []) (o : Option Opcode) :
    o.bind s.handler? = none := by
  cases o with
  | none => rfl
  | some o =>
    show s.handlers.lookup o = none
    rw [hs]
    rfl

/-- Without handlers, a step is one of the machine. -/
theorem step_of_no_handlers (hs : s.handlers = []) (fuel : Nat) :
    step (fuel + 1) s = some (s.lift Machine.step) := by
  cases hi : s.machine.fetch? with
  | none =>
    have hstep : Machine.step s.machine = .ok () s.machine := by
      unfold Machine.step
      rw [hi]
    rw [step, hi, lift_of_ok hstep]
  | some i => exact step_of_builtin hi (bind_handler?_of_no_handlers hs i.opcode) fuel

theorem eq_lift_of_step {fuel : Nat} {r : Result Unit} (hs : s.handlers = [])
    (h : step fuel s = some r) : r = s.lift Machine.step := by
  cases fuel with
  | zero =>
    rw [step] at h
    cases h
  | succ fuel =>
    rw [step_of_no_handlers hs] at h
    exact (Option.some.inj h).symm

/-- **Without handlers, a run is one of the machine.** -/
theorem run_of_no_handlers (hs : s.handlers = []) (fuel : Nat) :
    (run (fuel + 1) s).map onMachine = Machine.run fuel s.machine := by
  induction fuel generalizing s with
  | zero =>
    rw [run_succ, Machine.run]
    split
    · rw [step]
      rfl
    · exact congrArg some (onMachine_lift Machine.endRun s)
  | succ fuel ih =>
    rw [run_succ, Machine.run]
    split
    · rw [step_of_no_handlers hs]
      cases hm : Machine.step s.machine with
      | ok v m =>
        rw [lift_of_ok hm]
        exact ih (s := { s with machine := m }) hs
      | error e m =>
        rw [lift_of_error hm]
        rfl
    · exact congrArg some (onMachine_lift Machine.endRun s)

/-- **Without handlers, a cooperative run is one of the machine** with the session's token. -/
theorem runCooperatively_of_no_handlers (hs : s.handlers = []) (paced : Bool) (fuel : Nat) :
    (runCooperatively paced (fuel + 1) s).map onMachine =
      Machine.runCooperatively paced fuel s.token s.machine := by
  have hlook (s : Session) : s.machine.heed s.token.isCancelled = s.look.machine := rfl
  induction fuel generalizing s with
  | zero =>
    rw [runCooperatively_succ, Machine.runCooperatively, hlook]
    split
    · rw [step]
      rfl
    · exact congrArg some (onMachine_lift Machine.endCooperativeRun s.look)
  | succ fuel ih =>
    rw [runCooperatively_succ, Machine.runCooperatively, hlook]
    split
    · rw [step_of_no_handlers (s := s.look) hs, seqRight_eq_bind]
      cases hm : Machine.step s.look.machine with
      | ok v m =>
        rw [lift_of_ok hm, Machine.bind_of_ok hm]
        cases hp : Machine.pause paced m with
        | ok w m₁ =>
          rw [sequel, lift_of_ok hp]
          exact ih (s := { s.look with machine := m₁ }) hs
        | error e m₁ =>
          rw [sequel, lift_of_error hp]
          rfl
      | error e m =>
        rw [lift_of_error hm, Machine.bind_of_error hm]
        rfl
    · exact congrArg some (onMachine_lift Machine.endCooperativeRun s.look)

end Stackline.Session
