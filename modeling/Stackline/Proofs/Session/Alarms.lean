import Mathlib.Data.List.Forall2
import Stackline.Proofs.Machine.Alarms
import Stackline.Proofs.Session.Builtin
import Stackline.Proofs.Session.Reachable

/-!
# Every fault raises one alarm

However a host drives a machine with the built-in operations, by steps, runs and cooperative runs,
the machine goes through *ticks*: steps, flushes, notes of the ends of runs, and stops.  Only a step
keeps a fault or raises an alarm, and it does both or neither (`Matched.tick`).  So the alarms that
were raised and the faults that were kept go together one by one, in order (`alarms_match_faults`).
-/

namespace Stackline

open Relation

namespace Machine

variable {m₀ m m' : Machine} {e : Error} {ev : Event}

/-! ### Ticks -/

/-- What happens to a machine that is driven. -/
inductive Tick : Machine → Machine → Prop
  | step (m : Machine) : Tick m (endState (step m))
  | flush (m : Machine) : Tick m (endState (flush m))
  | finish (m : Machine) : Tick m (m.note (.finished m.killed))
  | cancel (m : Machine) : Tick m (m.heed true)

/-- The fault `e` was met and the alarm `ev` raised by a step on the way from `m₀` to `m`, and the
alarm reports the fault. -/
def Diagnosed (m₀ m : Machine) (e : Error) (ev : Event) : Prop :=
  ∃ m₁ i, ReflTransGen Tick m₀ m₁ ∧ Alarmed m₁ i e ev ∧ ReflTransGen Tick (endState (step m₁)) m

theorem Diagnosed.tick (h : Diagnosed m₀ m e ev) (ht : Tick m m') : Diagnosed m₀ m' e ev := by
  obtain ⟨m₁, i, hbefore, halarmed, hafter⟩ := h
  exact ⟨m₁, i, hbefore, halarmed, hafter.tail ht⟩

/-- The alarms raised since `m₀` go with the faults, one by one. -/
def Matched (m₀ m : Machine) : Prop :=
  ∃ raised, m.alarms = m₀.alarms ++ raised ∧ List.Forall₂ (Diagnosed m₀ m) m.faults raised

/-- A tick without a fault and an alarm. -/
theorem Matched.of_quiet (h : Matched m₀ m) (ht : Tick m m') (hf : m'.faults = m.faults)
    (ha : m'.alarms = m.alarms) : Matched m₀ m' := by
  obtain ⟨raised, halarms, hpairs⟩ := h
  refine ⟨raised, ha.trans halarms, ?_⟩
  rw [hf]
  exact hpairs.imp fun _ _ hd => hd.tick ht

/-- A step with a fault and its alarm. -/
theorem Matched.of_alarmed {i : Instruction} (h : Matched m₀ m) (hpath : ReflTransGen Tick m₀ m)
    (halarmed : Alarmed m i e ev) : Matched m₀ (endState (step m)) := by
  obtain ⟨raised, halarms, hpairs⟩ := h
  refine ⟨raised ++ [ev], ?_, ?_⟩
  · rw [halarmed.alarm, halarms, List.append_assoc]
  · rw [halarmed.fault]
    exact List.rel_append (hpairs.imp fun _ _ hd => hd.tick (.step m))
      (.cons ⟨m, i, hpath, halarmed, .refl⟩ .nil)

theorem alarms_heed (m : Machine) (cancelled : Bool) : (m.heed cancelled).alarms = m.alarms := by
  unfold heed
  split
  · exact alarms_note m (.cancelled m.pc)
  · rfl

/-- **One tick.** -/
theorem Matched.tick (h : Matched m₀ m) (hw : m.WellFormed) (hpath : ReflTransGen Tick m₀ m)
    (ht : Tick m m') : Matched m₀ m' := by
  cases ht with
  | step =>
    cases hm : m.isRunning with
    | false =>
      rw [step_of_stopped hm]
      exact h
    | true =>
      obtain ⟨i, hi⟩ := exists_fetch hm
      rcases step_alarms hw.bounded hi with ⟨hf, ha⟩ | ⟨-, e, ev, halarmed⟩
      · exact h.of_quiet (.step m) hf ha
      · exact h.of_alarmed hpath halarmed
  | flush =>
    exact h.of_quiet (.flush m) (Composed.flush.spared m).faults (plain_flush.alarms m)
  | finish => exact h.of_quiet (.finish m) rfl (alarms_note m (.finished m.killed))
  | cancel => exact h.of_quiet (.cancel m) (Session.spared_heed m true).faults (alarms_heed m true)

theorem wellFormed_tick (hw : m.WellFormed) (ht : Tick m m') : m'.WellFormed := by
  cases ht with
  | step => exact (wellFormed_step hw).1
  | flush => exact (Composed.flush.spared m).wellFormed hw
  | finish => exact (Spared.note m _).wellFormed hw
  | cancel => exact (Session.spared_heed m true).wellFormed hw

/-- **Many ticks.** -/
theorem matched_of_ticks (hw : m₀.WellFormed) (hf : m₀.faults = []) (h : ReflTransGen Tick m₀ m) :
    m.WellFormed ∧ Matched m₀ m := by
  induction h with
  | refl =>
    refine ⟨hw, [], (List.append_nil _).symm, ?_⟩
    rw [hf]
    exact .nil
  | tail hpath ht ih =>
    obtain ⟨hw₁, hmatched⟩ := ih
    exact ⟨wellFormed_tick hw₁ ht, hmatched.tick hw₁ hpath ht⟩

end Machine

namespace Session

variable {s t : Session}

/-! ### Sessions -/

/-- What a host does that only drives the machine, with a token that may change at any time. -/
inductive Drive : Session → Session → Prop
  | act {s : Session} {fuel : Nat} {a : Action} {r : Result Reply} (ha : a.Drives)
      (h : perform fuel a s = some r) : Drive s (endState r)
  | token (s : Session) (t : Token) : Drive s { s with token := t }

/-- Without handlers, a machine goes from `s` to `t` by ticks. -/
def Ticks (s t : Session) : Prop :=
  s.handlers = [] → t.handlers = [] ∧ ReflTransGen Machine.Tick s.machine t.machine

theorem ticks_lift {α : Type} {act : Act α}
    (h : ∀ m, ReflTransGen Machine.Tick m (endState (act m))) (s : Session) :
    Ticks s (endState (s.lift act)) := by
  intro hs
  rw [endState_lift]
  exact ⟨hs, h s.machine⟩

open Machine in
theorem ticks_endRun (m : Machine) : ReflTransGen Tick m (endState (endRun m)) :=
  endState_bind (Q := ReflTransGen Tick m) (.single (.flush m)) fun _ m₁ h => h.tail (.finish m₁)

open Machine in
theorem ticks_endCooperativeRun (m : Machine) :
    ReflTransGen Tick m (endState (endCooperativeRun m)) :=
  endState_bind (ticks_endRun m) fun _ _ h => h

open Machine in
theorem ticks_pause (paced : Bool) (m : Machine) :
    ReflTransGen Tick m (endState (pause paced m)) := by
  unfold pause
  split
  · exact .single (.flush m)
  · exact .refl

/-- Everything that drives the machine does it by ticks. -/
theorem carried_ticks : Carried Ticks where
  refl _ hs := ⟨hs, .refl⟩
  trans h h' hs := by
    obtain ⟨ht, hst⟩ := h hs
    obtain ⟨hu, htu⟩ := h' ht
    exact ⟨hu, hst.trans htu⟩
  step h hs := by
    rw [eq_lift_of_step hs h]
    exact ticks_lift (fun m => .single (.step m)) _ hs
  endRun s := ticks_lift ticks_endRun s
  endCooperativeRun s := ticks_lift ticks_endCooperativeRun s
  pause paced s := ticks_lift (ticks_pause paced) s
  look s hs := by
    refine ⟨hs, ?_⟩
    show ReflTransGen _ s.machine (s.machine.heed s.token.isCancelled)
    cases s.token.isCancelled with
    | true => exact .single (.cancel s.machine)
    | false => exact .refl

theorem ticks_drives (h : ReflTransGen Drive s t) : Ticks s t := by
  induction h with
  | refl => exact carried_ticks.refl s
  | tail _ hdrive ih =>
    refine carried_ticks.trans ih ?_
    cases hdrive with
    | act ha h => exact carried_ticks.perform ha h
    | token t => exact fun hs => ⟨hs, .refl⟩

/-- **Every fault raises one alarm.**  Let a host drive a fresh machine with the built-in operations,
by any sequence of steps, runs and cooperative runs that may end in errors.  The alarms raised go
with the faults of the machine, one by one and in order, and there is at most one.  Each was raised
by the very step that kept its fault, and reports that fault: an underflow by what the instruction
expected of the stack and how deep it was when the step began, any other fault with the line and the
mnemonic of the instruction and as it is shown.  A step that returns an error raises no alarm. -/
theorem alarms_match_faults {p : Program} {s₀ s : Session} (h₀ : s₀.Fresh p)
    (h : ReflTransGen Drive s₀ s) :
    (∃ raised, s.machine.alarms = s₀.machine.alarms ++ raised ∧
      List.Forall₂ (Machine.Diagnosed s₀.machine s.machine) s.machine.faults raised ∧
      raised.length ≤ 1) ∧
    ∀ fuel e t, step fuel s = some (.error e t) → t.machine.alarms = s.machine.alarms := by
  have hw₀ := h₀.sound.machine
  obtain ⟨hhandlers, source, sink, log, hm⟩ := h₀
  have hf₀ : s₀.machine.faults = [] := by rw [hm]; rfl
  obtain ⟨hs, hticks⟩ := ticks_drives h hhandlers
  obtain ⟨hw, raised, halarms, hpairs⟩ := Machine.matched_of_ticks hw₀ hf₀ hticks
  refine ⟨⟨raised, halarms, hpairs, ?_⟩, fun fuel e t hstep => ?_⟩
  · rw [← hpairs.length_eq]
    exact hw.faults
  · have hlift := eq_lift_of_step hs hstep
    cases hm' : Machine.step s.machine with
    | ok _ m' =>
      rw [lift_of_ok hm'] at hlift
      cases hlift
    | error e' m' =>
      have hrun : s.machine.isRunning = true := by
        rw [← Bool.not_eq_false]
        intro hstop
        rw [Machine.step_of_stopped hstop] at hm'
        cases hm'
      obtain ⟨i, hi⟩ := Machine.exists_fetch hrun
      rw [lift_of_error hm'] at hlift
      cases hlift
      rcases Machine.step_alarms hw.bounded hi with ⟨-, ha⟩ | ⟨⟨_, hok⟩, -⟩
      · rwa [hm', endState_error] at ha
      · rw [hm'] at hok
        cases hok

/-- An addition with one operand. -/
def shortAdd : Session :=
  { machine := .start (.ofInstructions [.ofMnemonic 10 "PUSH" ["7"],
      .ofMnemonic 20 "ADD" []]) (.ofText "") (.writer {}) }

/-- The addition raises an alarm in a cooperative run. -/
theorem alarms_match_faults_shortAdd : ∃ s e ev, ReflTransGen Drive shortAdd s ∧
    s.machine.faults = [e] ∧ s.machine.alarms = [ev] ∧
    Machine.Diagnosed shortAdd.machine s.machine e ev ∧
    e.display = "STACK UNDERFLOW IN 20; ADD EXPECTED 2 ENTRIES ON OPERAND STACK, GOT 1" ∧
    ev.fields = [("opcode", "ADD"), ("line", "20"), ("expected", "2"), ("actual", "1"),
      ("stack", "OPERAND")] := by
  have hview : (perform 9 (.runCooperatively true) shortAdd).map (fun r =>
      ((endState r).machine.faults, (endState r).machine.alarms)) =
      some ([{ cause := .underflow "ADD" .operand 2 1, line := some 20 }],
        [.underflow "ADD" 20 2 1 .operand]) := by decide +kernel
  obtain ⟨r, hr, hv⟩ := Option.map_eq_some_iff.mp hview
  obtain ⟨hfaults, halarms⟩ := Prod.mk.inj hv
  have hfresh : shortAdd.Fresh shortAdd.machine.program :=
    ⟨rfl, .ofText "", .writer {}, #[], rfl⟩
  have hdrive : ReflTransGen Drive shortAdd (endState r) :=
    .single (.act (a := .runCooperatively true) trivial hr)
  obtain ⟨⟨raised, hraised, hpairs, -⟩, -⟩ := alarms_match_faults hfresh hdrive
  obtain rfl : raised = [.underflow "ADD" 20 2 1 .operand] := hraised.symm.trans halarms
  rw [hfaults] at hpairs
  cases hpairs with
  | cons hdiagnosed _ =>
    exact ⟨_, _, _, hdrive, hfaults, halarms, hdiagnosed, by decide, by decide⟩

end Session

end Stackline
