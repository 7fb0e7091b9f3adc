import Mathlib.Logic.Relation
import Stackline.Proofs.Session.Driving

/-!
# What a cooperative run tells

A cooperative run goes in rounds: it looks at the token, makes a step and may pause.  It ends at the
first look that finds the machine stopped, and tells whether the machine has been stopped for good,
by its program, by an error or by the host.  But the look comes before the question whether there is
anything left to do, so a request that is seen only then stops a machine that has come to the end of
its program already, and the run tells that it was stopped (`runCooperatively_tells`).
-/

namespace Stackline

namespace Machine

variable {m m' : Machine} {i : Instruction} {b : Bool}

/-! ### Ways to be stopped -/

theorem killed_advance (m : Machine) : m.advance.killed = m.killed := by
  unfold advance
  split <;> rfl

theorem killed_executeInstruction (h : i.opcode ≠ some .exit) (m : Machine) :
    (endState (executeInstruction i m)).killed = m.killed := by
  cases ho : i.opcode with
  | none =>
    unfold executeInstruction
    rw [ho]
    rfl
  | some o =>
    rw [executeInstruction_of_some ho]
    exact (composed_execute o).killed (fun he => h (ho.trans (congrArg some he))) m

/-- A step that does not fail stops the machine only by `EXIT` or with a fault. -/
theorem exit_or_fault_of_killed (hi : m.fetch? = some i) (hs : step m = .ok () m')
    (hk : m'.killed = true) : i.opcode = some .exit ∨ ∃ e, m'.faults = m.faults ++ [e] := by
  have hrun : m.killed = false := (isRunning_iff.mp (fetch?_eq_some_iff.mp hi).1).1
  obtain ⟨-, hfaults, -⟩ := executeInstruction_settles i m
  by_cases hexit : i.opcode = some .exit
  · exact .inl hexit
  · have hkilled := killed_executeInstruction hexit (m.begin i)
    rw [step_of_fetch hi] at hs
    have hc := concluded i (executeInstruction i (m.begin i))
    rw [hs] at hc
    generalize executeInstruction i (m.begin i) = r at hc hkilled hfaults
    cases hc with
    | moved m₁ =>
      have hstill : m₁.advance.killed = false :=
        (killed_advance m₁).trans (hkilled.trans hrun)
      rw [hstill] at hk
      cases hk
    | faulted m₁ log he =>
      have hfaults : m₁.faults = m.faults := hfaults
      exact .inr ⟨_, congrArg (· ++ _) hfaults⟩

/-! ### The end of a cooperative run -/

theorem killed_flush (m : Machine) : (endState (flush m)).killed = m.killed := by
  obtain ⟨operands, registers, input, sink, exchanges, hm⟩ := plain_flush.frame m
  rw [hm]

theorem faults_flush (m : Machine) : (endState (flush m)).faults = m.faults := by
  obtain ⟨operands, registers, input, sink, exchanges, hm⟩ := plain_flush.frame m
  rw [hm]

theorem endCooperativeRun_eq_ok (h : endCooperativeRun m = .ok b m') :
    m'.killed = b ∧ b = m.killed := by
  have hflush := killed_flush m
  cases hf : flush m with
  | ok u m₁ =>
    rw [hf] at hflush
    rw [endCooperativeRun_of_ok (bind_of_ok hf)] at h
    cases h
    exact ⟨rfl, hflush⟩
  | error e m₁ =>
    rw [endCooperativeRun_of_error (bind_of_error hf)] at h
    cases h

end Machine

namespace Session

open Relation

variable {paced : Bool} {s s₁ t u : Session} {c : Result Bool} {b : Bool} {fuel : Nat}

/-! ### Looking at the token -/

theorem killed_look (s : Session) :
    s.look.machine.killed = (s.machine.killed || s.token.isCancelled) := by
  unfold look Machine.heed
  cases hk : s.machine.killed <;> cases hc : s.token.isCancelled <;> simp [Machine.kill, hk]

theorem sink_look (s : Session) : s.look.machine.sink = s.machine.sink := by
  unfold look Machine.heed
  split <;> rfl

/-- A session in which the machine is running after a look is as it was. -/
theorem look_of_isRunning (h : s.look.machine.isRunning = true) :
    s.look = { s with token := s.token.tick } := by
  have hk := (Machine.isRunning_iff.mp h).1
  rw [killed_look, Bool.or_eq_false_iff] at hk
  exact look_of_not_cancelled hk.2

theorem isRunning_look_of_stopped (h : s.machine.isRunning = false) :
    s.look.machine.isRunning = false := by
  rw [← Bool.not_eq_true]
  intro hlook
  have hsame : s.look.machine = s.machine := by rw [look_of_isRunning hlook]
  rw [hsame, h] at hlook
  cases hlook

/-! ### Rounds -/

/-- A round of a cooperative run: a look that finds the machine running, a step and a pause. -/
inductive Round (paced : Bool) : Session → Session → Prop
  | intro {fuel : Nat} {s s₁ t : Session} (hrun : s.look.machine.isRunning = true)
      (hs : step fuel s.look = some (.ok () s₁))
      (hp : s₁.lift (Machine.pause paced) = .ok () t) : Round paced s t

theorem endsCooperatively_of_rounds (h : ReflTransGen (Round paced) s t)
    (ht : EndsCooperatively paced t c) : EndsCooperatively paced s c := by
  induction h using ReflTransGen.head_induction_on with
  | refl => exact ht
  | head hround _ ih =>
    obtain ⟨hrun, hs, hp⟩ := hround
    exact endsCooperatively_step hrun hs hp ih

/-- A run is over when a look finds the machine stopped. -/
theorem exists_end_of_rounds (h : ReflTransGen (Round paced) s t)
    (hstop : t.machine.isRunning = false) (hf : t.machine.sink.Flushes) :
    ∃ u, EndsCooperatively paced s (.ok (t.machine.killed || t.token.isCancelled) u) ∧
      u.machine.killed = (t.machine.killed || t.token.isCancelled) := by
  rw [← sink_look] at hf
  obtain ⟨m₁, hend, hidle, -⟩ := Machine.endRun_idle hf
  have hk : m₁.killed = (t.machine.killed || t.token.isCancelled) :=
    hidle.killed.trans (killed_look t)
  refine ⟨{ t.look with machine := m₁ }, endsCooperatively_of_rounds h ⟨1, ?_⟩, hk⟩
  rw [runCooperatively_succ, isRunning_look_of_stopped hstop,
    lift_of_ok (Machine.endCooperativeRun_of_ok hend), hk]
  rfl

/-- A run that ends well is made of rounds and of a look that finds the machine stopped. -/
theorem exists_rounds (h : runCooperatively paced fuel s = some (.ok b u)) :
    ∃ t, ReflTransGen (Round paced) s t ∧ t.look.machine.isRunning = false ∧
      t.look.lift Machine.endCooperativeRun = .ok b u := by
  induction fuel generalizing s with
  | zero => rw [runCooperatively] at h; cases h
  | succ fuel ih =>
    rw [runCooperatively_succ] at h
    split at h
    · next hrun =>
      cases hs : step fuel s.look with
      | none => rw [hs] at h; cases h
      | some r =>
        rw [hs] at h
        cases r with
        | error e s₁ => cases h
        | ok _ s₁ =>
          cases hp : s₁.lift (Machine.pause paced) with
          | error e s₂ =>
            simp only [sequel, hp] at h
            cases h
          | ok _ s₂ =>
            simp only [sequel, hp] at h
            obtain ⟨t, hrounds, hend⟩ := ih h
            exact ⟨t, .head ⟨hrun, hs, hp⟩ hrounds, hend⟩
    · next hrun => exact ⟨s, .refl, Bool.not_eq_true _ ▸ hrun, Option.some.inj h⟩

theorem lift_endCooperativeRun_eq_ok (h : s.lift Machine.endCooperativeRun = .ok b u) :
    u.machine.killed = b ∧ b = s.machine.killed := by
  cases hm : Machine.endCooperativeRun s.machine with
  | ok b' m =>
    rw [lift_of_ok hm] at h
    cases h
    exact Machine.endCooperativeRun_eq_ok hm
  | error e m =>
    rw [lift_of_error hm] at h
    cases h

theorem pause_eq_ok (h : s₁.lift (Machine.pause paced) = .ok () t) :
    t.machine.killed = s₁.machine.killed ∧ t.machine.faults = s₁.machine.faults := by
  have hframe : (endState (Machine.pause paced s₁.machine)).killed = s₁.machine.killed ∧
      (endState (Machine.pause paced s₁.machine)).faults = s₁.machine.faults := by
    unfold Machine.pause
    split
    · exact ⟨Machine.killed_flush _, Machine.faults_flush _⟩
    · exact ⟨rfl, rfl⟩
  cases hm : Machine.pause paced s₁.machine with
  | ok v m =>
    rw [hm] at hframe
    rw [lift_of_ok hm] at h
    cases h
    exact hframe
  | error e m =>
    rw [lift_of_error hm] at h
    cases h

/-- A machine is stopped in a round by `EXIT`, by a fault or by a handler of the host. -/
theorem stopped_of_round (h : Round paced s t) (hk : t.machine.killed = true) :
    ∃ i, s.machine.fetch? = some i ∧
      (i.opcode = some .exit ∨ (∃ e, t.machine.faults = s.machine.faults ++ [e]) ∨
        (i.opcode.bind s.handler?).isSome = true) := by
  obtain ⟨hrun, hs, hp⟩ := h
  obtain ⟨hkilled, hfaults⟩ := pause_eq_ok hp
  have hlook := look_of_isRunning hrun
  rw [hlook] at hrun hs
  obtain ⟨i, hi⟩ := Machine.exists_fetch hrun
  refine ⟨i, hi, ?_⟩
  cases hhandler : i.opcode.bind s.handler? with
  | some body => exact .inr (.inr rfl)
  | none =>
    have hone := step_of_builtin (s := { s with token := s.token.tick }) hi hhandler
    have hstep := Option.some.inj ((hone _).symm.trans (step_mono hs (Nat.le_succ _)))
    cases hm : Machine.step s.machine with
    | ok v m =>
      rw [lift_of_ok (s := { s with token := s.token.tick }) hm] at hstep
      cases hstep
      rw [hkilled] at hk
      rw [hfaults]
      rcases Machine.exit_or_fault_of_killed hi hm hk with hexit | hfault
      · exact .inl hexit
      · exact .inr (.inl hfault)
    | error e m =>
      rw [lift_of_error (s := { s with token := s.token.tick }) hm] at hstep
      cases hstep

/-- **What a cooperative run tells.**  Let some rounds lead to a look that finds the machine
stopped, at the end of its program or for good, with a sink that can be flushed.  Then the run ends,
and tells whether the machine has been stopped for good or the request is seen by that look; and it
leaves the machine stopped for good exactly if it tells so, also where the machine had come to the
end of its program.  Every run that ends well ends in this way, and one that tells that the machine
has not been stopped has come to the end of the program.  In a round the machine is stopped by
`EXIT`, by a fault or by a handler of the host only. -/
theorem runCooperatively_tells (paced : Bool) (s : Session) :
    (∀ t, ReflTransGen (Round paced) s t → t.machine.isRunning = false →
      t.machine.sink.Flushes →
      ∃ u, (∀ c, EndsCooperatively paced s c ↔
          c = .ok (t.machine.killed || t.token.isCancelled) u) ∧
        u.machine.killed = (t.machine.killed || t.token.isCancelled)) ∧
    (∀ b u, EndsCooperatively paced s (.ok b u) →
      u.machine.killed = b ∧ ∃ t, ReflTransGen (Round paced) s t ∧
        (b = true ↔ t.machine.killed = true ∨ t.token.isCancelled = true) ∧
        (b = false → t.machine.program.size ≤ t.machine.pc)) ∧
    (∀ t, Round paced s t → t.machine.killed = true →
      ∃ i, s.machine.fetch? = some i ∧
        (i.opcode = some .exit ∨ (∃ e, t.machine.faults = s.machine.faults ++ [e]) ∨
          (i.opcode.bind s.handler?).isSome = true)) := by
  refine ⟨fun t h hstop hf => ?_, fun b u h => ?_, fun t => stopped_of_round⟩
  · obtain ⟨u, hu, hk⟩ := exists_end_of_rounds h hstop hf
    exact ⟨u, endsCooperatively_iff hu, hk⟩
  · obtain ⟨fuel, hc⟩ := h
    obtain ⟨t, hrounds, hstop, hend⟩ := exists_rounds hc
    obtain ⟨hk, hb⟩ := lift_endCooperativeRun_eq_ok hend
    refine ⟨hk, t, hrounds, ?_, fun hfalse => ?_⟩
    · rw [hb, killed_look, Bool.or_eq_true]
    · -- the look changed nothing, so the machine was stopped before it, and not for good
      rw [hb, killed_look, Bool.or_eq_false_iff] at hfalse
      rw [look_of_not_cancelled hfalse.2] at hstop
      have hpc : ¬ t.machine.pc < t.machine.program.size := fun hlt => by
        rw [Machine.isRunning_iff.mpr ⟨hfalse.1, hlt⟩] at hstop
        cases hstop
      exact Nat.le_of_not_lt hpc

/-- A program of one instruction, where the host pushes a number in its own way and then does
something more. -/
def pushesThen (more : List Action) : Session where
  machine := .start (.ofInstructions [.ofMnemonic 10 "PUSH" ["7"]])
    (.ofText "") (.writer {})
  handlers := [(.push, .call (.push (.integer 7)) :: more)]

/-- Without a request the run comes to the end of the program and tells so; if the host stops the
machine, it does so in a handler. -/
theorem runCooperatively_tells_pushesThen :
    (∃ u, EndsCooperatively true (pushesThen []) (.ok false u) ∧ u.machine.killed = false ∧
      ∃ t, ReflTransGen (Round true) (pushesThen []) t ∧
        t.machine.program.size ≤ t.machine.pc) ∧
    ∃ t i, Round true (pushesThen [.call .kill]) t ∧ t.machine.killed = true ∧
      (pushesThen [.call .kill]).machine.fetch? = some i ∧
      (i.opcode = some .exit ∨
        (∃ e, t.machine.faults = (pushesThen [.call .kill]).machine.faults ++ [e]) ∨
        (i.opcode.bind (pushesThen [.call .kill]).handler?).isSome = true) := by
  constructor
  · obtain ⟨hends, htold, -⟩ := runCooperatively_tells true (pushesThen [])
    have hround : Round true (pushesThen []) _ := @Round.intro true 4 _ _ _ rfl rfl rfl
    obtain ⟨u, hu, hk⟩ := hends _ (.single hround) rfl (Nat.le_refl 0)
    have hend := (hu _).mpr rfl
    obtain ⟨-, t, ht, -, hpc⟩ := htold _ u hend
    exact ⟨u, hend, hk, t, ht, hpc rfl⟩
  · obtain ⟨-, -, hstopped⟩ := runCooperatively_tells true (pushesThen [.call .kill])
    have hround : Round true (pushesThen [.call .kill]) _ := @Round.intro true 5 _ _ _ rfl rfl rfl
    obtain ⟨i, hi, hcause⟩ := hstopped _ hround rfl
    exact ⟨_, i, hround, rfl, hi, hcause⟩

/-- The request comes with the last instruction: the program is complete when it is seen, and yet
the run tells that it was stopped. -/
theorem runCooperatively_lateRequest :
    ∃ t u, Round false (pushesThen [.cancel]) t ∧ t.machine.killed = false ∧
      t.machine.pc = t.machine.program.size ∧ t.token.isCancelled = true ∧
      EndsCooperatively false (pushesThen [.cancel]) (.ok true u) ∧ u.machine.killed = true := by
  have hround : Round false (pushesThen [.cancel]) _ := @Round.intro false 5 _ _ _ rfl rfl rfl
  obtain ⟨u, hu, hk⟩ := exists_end_of_rounds (.single hround) rfl (Nat.le_refl 0)
  exact ⟨_, u, hround, rfl, rfl, rfl, hu, hk⟩

end Session

end Stackline
