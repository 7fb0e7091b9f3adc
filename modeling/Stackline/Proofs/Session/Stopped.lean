import Stackline.Proofs.Machine.Errors
import Stackline.Proofs.Machine.Fault
import Stackline.Proofs.Machine.Flush
import Stackline.Session.Basic

/-!
# Errors stop a machine for good

A step reports only failures of the host and texts that are no literals; it keeps all other errors
as faults, and each has the line of the instruction (`Machine.step_stoppedBy`).  Either way the
machine is stopped at the end of its program, and nothing that drives it changes it again, except
that flushes reach its host and the ends of runs are noted (`performAll_of_killed`).
-/

namespace Stackline

/-- An action that drives the machine. -/
def Action.Drives : Action → Prop
  | step | steps _ | run | runCooperatively _ => True
  | _ => False

namespace Machine

variable {m m₁ m₂ : Machine}

/-- Nothing that a program can tell has happened on the way from `m₁` to `m₂`. -/
structure Idle (m₁ m₂ : Machine) : Prop extends Untouched m₁ m₂ where
  faults : m₂.faults = m₁.faults
  pc : m₂.pc = m₁.pc
  killed : m₂.killed = m₁.killed

theorem Idle.refl (m : Machine) : Idle m m := ⟨.refl m, rfl, rfl, rfl⟩

theorem Idle.trans (h : Idle m m₁) (h' : Idle m₁ m₂) : Idle m m₂ where
  toSameStacks := h.toSameStacks.trans h'.toSameStacks
  written := h'.written.trans h.written
  input := h'.input.trans h.input
  faults := h'.faults.trans h.faults
  pc := h'.pc.trans h.pc
  killed := h'.killed.trans h.killed

theorem Idle.note (m : Machine) (e : Event) : Idle m (m.note e) := ⟨.note m e, rfl, rfl, rfl⟩

theorem Agree.idle (h : Agree m m₁) : Idle m m₁ where
  operands := h.view fun _ _ _ => rfl
  registers := h.view fun _ _ _ => rfl
  calls := h.view fun _ _ _ => rfl
  written := h.written
  input := h.view fun _ _ _ => rfl
  faults := h.view fun _ _ _ => rfl
  pc := h.view fun _ _ _ => rfl
  killed := h.view fun _ _ _ => rfl

theorem isRunning_of_killed (h : m.killed = true) : m.isRunning = false := by
  unfold isRunning
  rw [h]
  rfl

theorem heed_of_killed (h : m.killed = true) (cancelled : Bool) : m.heed cancelled = m := by
  unfold heed
  rw [h, Bool.not_true, Bool.and_false]
  rfl

/-- The end of a run does nothing but flush and note it. -/
theorem endRun_idle (h : m.sink.Flushes) :
    ∃ m₁, endRun m = .ok () m₁ ∧ Idle m m₁ ∧ m₁.sink.Flushes := by
  obtain ⟨m₁, hm, h₁⟩ := endRun_agree h
  exact ⟨m₁, hm, (Idle.note m _).trans h₁.idle, h₁.right⟩

end Machine

namespace Session

variable {s : Session} {a : Action}

theorem lift_of_ok {α : Type} {act : Act α} {v : α} {m : Machine} (h : act s.machine = .ok v m) :
    s.lift act = .ok v { s with machine := m } := by
  unfold lift
  rw [h]

theorem lift_of_error {α : Type} {act : Act α} {e : Error} {m : Machine}
    (h : act s.machine = .error e m) : s.lift act = .error e { s with machine := m } := by
  unfold lift
  rw [h]

/-! ### Steps by the built-in operations -/

theorem step_of_builtin {i : Instruction} (hi : s.machine.fetch? = some i)
    (ho : i.opcode.bind s.handler? = none) (fuel : Nat) :
    step (fuel + 1) s = some (s.lift Machine.step) := by
  unfold step
  rw [hi]
  simp only
  rw [ho]

/-! ### Stopped machines -/

/-- Two units of fuel are enough to drive a stopped machine. -/
theorem perform_of_killed (hk : s.machine.killed = true) (hf : s.machine.sink.Flushes)
    (ha : a.Drives) : ∃ v t, (∀ fuel, perform (fuel + 2) a s = some (.ok v t)) ∧
      s.machine.Idle t.machine ∧ t.machine.sink.Flushes := by
  have hstop := Machine.isRunning_of_killed hk
  obtain ⟨m₁, hend, hidle, hf₁⟩ := Machine.endRun_idle hf
  cases a with
  | step =>
    have hfetch : s.machine.fetch? = none := by simp [Machine.fetch?, hstop]
    refine ⟨.done, s, fun fuel => ?_, .refl _, hf⟩
    simp only [perform, step, hfetch]
    rfl
  | steps n =>
    refine ⟨.count 0, s, fun fuel => ?_, .refl _, hf⟩
    cases n with
    | zero => rfl
    | succ n =>
      simp only [perform, steps, hstop]
      rfl
  | run =>
    refine ⟨.done, { s with machine := m₁ }, fun fuel => ?_, hidle, hf₁⟩
    simp only [perform, run, hstop, lift_of_ok hend]
    rfl
  | runCooperatively paced =>
    have hcoop := lift_of_ok (s := { s with token := s.token.tick })
      (Machine.endCooperativeRun_of_ok hend)
    refine ⟨.flag m₁.killed, { s with machine := m₁, token := s.token.tick }, fun fuel => ?_,
      hidle, hf₁⟩
    simp only [perform, runCooperatively, Machine.heed_of_killed hk, hstop, hcoop]
    rfl
  | _ => exact ha.elim

theorem performAll_of_killed {as : List Action} (hk : s.machine.killed = true)
    (hf : s.machine.sink.Flushes) (has : ∀ a ∈ as, a.Drives) :
    ∃ t, (∀ fuel, performAll (fuel + as.length + 2) as s = some (.ok () t)) ∧
      s.machine.Idle t.machine := by
  induction as generalizing s with
  | nil => exact ⟨s, fun _ => rfl, .refl _⟩
  | cons a as ih =>
    obtain ⟨v, t, hperform, hidle, hft⟩ := perform_of_killed hk hf (has a List.mem_cons_self)
    obtain ⟨u, hall, hidle'⟩ := ih (hidle.killed.trans hk) hft
      fun b hb => has b (List.mem_cons_of_mem _ hb)
    refine ⟨u, fun fuel => ?_, hidle.trans hidle'⟩
    show performAll (fuel + as.length + 2 + 1) (a :: as) s = _
    simp only [performAll, hperform]
    exact hall fuel

/-- **Errors stop a machine for good.**  A step by a built-in operation returns only errors of
syntax and of the host, and faults are kept with the machine instead; whether returned or kept, an
error is one that the operation foresees, has the line of the instruction, and has stopped the
machine at the end of its program.  From a stopped machine whose sink can be flushed, any actions
that drive it return without an error, and change neither its stacks, its input and the text
written, nor its faults and its pointer. -/
theorem errors_stop_for_good :
    (∀ (s : Session) (i : Instruction) (fuel : Nat), s.machine.fetch? = some i →
      i.opcode.bind s.handler? = none → ∃ r, step (fuel + 1) s = some r ∧
        (∀ e t, r = .error e t →
          (e.kind = .syntaxError ∨ e.kind = .ioError) ∧ e.line = some i.line ∧
          t.machine.killed = true ∧ t.machine.pc = s.machine.program.size ∧
          t.machine.faults = s.machine.faults) ∧
        (∀ t, r = .ok () t → t.machine.faults = s.machine.faults ∨
          ∃ e, t.machine.faults = s.machine.faults ++ [e] ∧ e.isFault = true ∧
            e.cause.Foreseen ∧ e.line = some i.line ∧
            t.machine.killed = true ∧ t.machine.pc = s.machine.program.size)) ∧
    (∀ (s : Session) (as : List Action), s.machine.killed = true → s.machine.sink.Flushes →
      (∀ a ∈ as, a.Drives) →
      ∃ t, (∀ fuel, performAll (fuel + as.length + 2) as s = some (.ok () t)) ∧
        s.machine.Idle t.machine) := by
  refine ⟨fun s i fuel hi ho => ?_, fun s as hk hf has => performAll_of_killed hk hf has⟩
  obtain ⟨hprog, herror, hok⟩ := Machine.step_stoppedBy hi
  have hstep := step_of_builtin hi ho fuel
  cases hs : Machine.step s.machine with
  | ok u m' =>
    rw [hs] at hprog
    rw [lift_of_ok hs] at hstep
    refine ⟨_, hstep, fun e t hr => (by cases hr), fun t hr => ?_⟩
    cases hr
    rcases hok m' hs with hsame | ⟨e, hfaults, he, hforeseen, hby⟩
    · exact .inl hsame
    · exact .inr ⟨e, hfaults, he, hforeseen, hby.line, hby.killed,
        hby.pc.trans (congrArg Program.size hprog)⟩
  | error e m' =>
    rw [hs] at hprog
    rw [lift_of_error hs] at hstep
    refine ⟨_, hstep, fun e' t hr => ?_, fun t hr => (by cases hr)⟩
    cases hr
    obtain ⟨hkind, hby, hfaults⟩ := herror e m' hs
    exact ⟨hkind, hby.line, hby.killed, hby.pc.trans (congrArg Program.size hprog), hfaults⟩

/-- An addition without operands. -/
def lonelyAdd : Session :=
  { machine := .start (.ofInstructions [.ofMnemonic 10 "ADD" []])
      (.ofText "") (.writer {}) }

/-- The addition meets a fault, after which the host goes on driving to no effect. -/
theorem errors_stop_for_good_lonelyAdd :
    ∃ (t u : Session) (e : Error), step 1 lonelyAdd = some (.ok () t) ∧
      t.machine.faults = [e] ∧ e.kind = .stackUnderflow ∧ e.line = some 10 ∧
      t.machine.killed = true ∧ t.machine.pc = 1 ∧
      performAll 5 [.run, .step, .runCooperatively true] t = some (.ok () u) ∧
      t.machine.Idle u.machine := by
  obtain ⟨hstep, hrest⟩ := errors_stop_for_good
  have hi : lonelyAdd.machine.fetch? =
      some (.ofMnemonic 10 "ADD" []) := by decide +kernel
  obtain ⟨r, hr, herror, hok⟩ := hstep lonelyAdd _ 0 hi (by decide +kernel)
  have hview : (step 1 lonelyAdd).map (fun r =>
      ((endState r).machine.faults.map Error.kind, (endState r).machine.sink)) =
        some ([.stackUnderflow], .writer {}) := by decide +kernel
  rw [hr, Option.map_some, Option.some.injEq, Prod.mk.injEq] at hview
  obtain ⟨hkinds, hsink⟩ := hview
  cases r with
  | error e t =>
    obtain ⟨-, -, -, -, hfaults⟩ := herror e t rfl
    rw [endState_error, hfaults] at hkinds
    cases hkinds
  | ok _ t =>
    rw [endState_ok] at hkinds hsink
    rcases hok t rfl with hfaults | ⟨e, hfaults, -, -, hline, hk, hpc⟩
    · rw [hfaults] at hkinds
      cases hkinds
    · rw [hfaults] at hkinds
      have hflushes : t.machine.sink.Flushes := by rw [hsink]; exact Nat.le_refl 0
      obtain ⟨u, hu, hidle⟩ := hrest t [.run, .step, .runCooperatively true] hk hflushes
        (by simp [Action.Drives])
      exact ⟨t, u, e, hr, hfaults, List.head_eq_of_cons_eq hkinds, hline, hk, hpc, hu 0, hidle⟩

end Session

end Stackline
