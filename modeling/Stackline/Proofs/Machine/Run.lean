import Stackline.Proofs.Machine.Act
import Stackline.Proofs.Program

/-!
# Runs and steps

A run that is allowed enough steps gives a result, and more steps do not change it: `Halts m r` says
that a run from `m` ends with `r`.  `halts_of_stopped`, `halts_step_ok` and `halts_step_error` build
it step by step, and `Halts.induct` takes it apart.
-/

namespace Stackline.Machine

variable {m m₁ : Machine} {e : Error} {r r' : EStateM.Result Error Machine Unit} {fuel : Nat}

/-! ### Steps -/

theorem isRunning_iff : m.isRunning = true ↔ m.killed = false ∧ m.pc < m.program.size := by
  simp [isRunning]

theorem fetch?_eq_some_iff {i : Instruction} :
    m.fetch? = some i ↔ m.isRunning = true ∧ m.program.get? m.pc = some i := by
  unfold fetch?
  split
  · simp_all
  · simp_all

/-- A machine that is running has an instruction to execute. -/
theorem exists_fetch (h : m.isRunning = true) : ∃ i, m.fetch? = some i := by
  obtain ⟨i, hi⟩ := Program.get?_lt (isRunning_iff.mp h).2
  exact ⟨i, fetch?_eq_some_iff.mpr ⟨h, hi⟩⟩

theorem step_of_fetch {i : Instruction} (hi : m.fetch? = some i) :
    step m = conclude i (executeInstruction i (m.begin i)) := by
  unfold step
  rw [hi]

theorem step_of_stopped (h : m.isRunning = false) : step m = .ok () m := by
  unfold step fetch?
  rw [h]
  rfl

/-- The machine after some steps, however each of them ended. -/
def after : Nat → Machine → Machine
  | 0, m => m
  | n + 1, m => after n (endState (step m))

/-! ### Runs -/

/-- A run ends with a result. -/
def Halts (m : Machine) (r : EStateM.Result Error Machine Unit) : Prop := ∃ fuel, run fuel m = some r

theorem run_of_stopped (h : m.isRunning = false) (fuel : Nat) : run fuel m = some (endRun m) := by
  unfold run
  rw [if_neg (by simp [h])]

theorem run_zero (h : m.isRunning = true) : run 0 m = none := by
  unfold run
  rw [if_pos h]

theorem run_step_ok (h : m.isRunning = true) (hs : step m = .ok () m₁) :
    run (fuel + 1) m = run fuel m₁ := by
  rw [run, if_pos h, hs]

theorem run_step_error (h : m.isRunning = true) (hs : step m = .error e m₁) :
    run (fuel + 1) m = some (.error e m₁) := by
  rw [run, if_pos h, hs]

/-- More steps do not change the result. -/
theorem run_succ (h : run fuel m = some r) : run (fuel + 1) m = some r := by
  induction fuel generalizing m with
  | zero =>
    by_cases hm : m.isRunning = true
    · rw [run_zero hm] at h
      cases h
    · rw [Bool.not_eq_true] at hm
      rwa [run_of_stopped hm] at h ⊢
  | succ fuel ih =>
    by_cases hm : m.isRunning = true
    · cases hs : step m with
      | ok _ m₁ =>
        rw [run_step_ok hm hs] at h ⊢
        exact ih h
      | error e m₁ => rwa [run_step_error hm hs] at h ⊢
    · rw [Bool.not_eq_true] at hm
      rwa [run_of_stopped hm] at h ⊢

theorem run_add (h : run fuel m = some r) (n : Nat) : run (fuel + n) m = some r := by
  induction n with
  | zero => exact h
  | succ n ih => exact run_succ ih

theorem Halts.unique (h : Halts m r) (h' : Halts m r') : r = r' := by
  obtain ⟨fuel, hr⟩ := h
  obtain ⟨fuel', hr'⟩ := h'
  have h₁ := run_add hr fuel'
  have h₂ := run_add hr' fuel
  rw [Nat.add_comm, h₁] at h₂
  exact Option.some.inj h₂

theorem halts_of_stopped (h : m.isRunning = false) : Halts m (endRun m) :=
  ⟨0, run_of_stopped h 0⟩

theorem halts_step_ok (h : m.isRunning = true) (hs : step m = .ok () m₁) :
    Halts m r ↔ Halts m₁ r := by
  constructor
  · rintro ⟨fuel, hr⟩
    have hr' := run_succ hr
    rw [run_step_ok h hs] at hr'
    exact ⟨fuel, hr'⟩
  · rintro ⟨fuel, hr⟩
    exact ⟨fuel + 1, (run_step_ok h hs).trans hr⟩

theorem halts_step_error (h : m.isRunning = true) (hs : step m = .error e m₁) :
    Halts m (.error e m₁) :=
  ⟨1, run_step_error h hs⟩

/-- What holds of stopped machines and is carried back over every step holds of all machines that
halt. -/
@[elab_as_elim]
theorem Halts.induct
    {motive : (m : Machine) → (r : EStateM.Result Error Machine Unit) → Halts m r → Prop}
    (stopped : ∀ m (h : m.isRunning = false), motive m (endRun m) (halts_of_stopped h))
    (moved : ∀ m r (h : Halts m r), m.isRunning = true →
      (∀ m₁, step m = .ok () m₁ → ∃ h₁ : Halts m₁ r, motive m₁ r h₁) →
      (∀ e m₁, step m = .error e m₁ → r = .error e m₁) → motive m r h)
    {m : Machine} {r : EStateM.Result Error Machine Unit} (h : Halts m r) : motive m r h := by
  obtain ⟨fuel, hr⟩ := h
  induction fuel generalizing m with
  | zero =>
    cases hm : m.isRunning with
    | false =>
      obtain rfl := Option.some.inj ((run_of_stopped hm 0).symm.trans hr)
      exact stopped m hm
    | true =>
      rw [run_zero hm] at hr
      cases hr
  | succ fuel ih =>
    cases hm : m.isRunning with
    | false =>
      obtain rfl := Option.some.inj ((run_of_stopped hm (fuel + 1)).symm.trans hr)
      exact stopped m hm
    | true =>
      refine moved m r ⟨fuel + 1, hr⟩ hm (fun m₁ hs => ?_) fun e m₁ hs => ?_
      · have hr₁ := (run_step_ok hm hs).symm.trans hr
        exact ⟨⟨fuel, hr₁⟩, ih hr₁⟩
      · exact (Option.some.inj ((run_step_error hm hs).symm.trans hr)).symm

end Stackline.Machine
