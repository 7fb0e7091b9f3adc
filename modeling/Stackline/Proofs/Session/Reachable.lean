import Mathlib.Logic.Relation
import Stackline.Proofs.Machine.Invariant
import Stackline.Proofs.Session.Simulation
import Stackline.Proofs.Session.Stopped

/-!
# The sessions that a host can reach

A host makes moves (`Move`): it performs actions, changes its token, and lets operations be handled
in ways of its own.  Handlers do not drive the machine.  Every machine that a host reaches from a
fresh one is well formed, and one that was stopped stays so (`reachable_wellFormed`).
-/

namespace Stackline

open Relation

/-- An action that does not drive the machine, and installs no handler that does. -/
inductive Action.Passive : Action → Prop
  | call (c : Call) : Passive (.call c)
  | cancel : Passive .cancel
  | isCancelled : Passive .isCancelled
  | whenDepth (n : Nat) {body : List Action} (h : ∀ a ∈ body, Passive a) :
      Passive (.whenDepth n body)
  | setHandler (o : Opcode) {body : List Action} (h : ∀ a ∈ body, Passive a) :
      Passive (.setHandler o body)
  | removeHandler (o : Opcode) : Passive (.removeHandler o)

/-- An action that may drive the machine, and installs no handler that does. -/
inductive Action.Tame : Action → Prop
  | passive {a : Action} (h : a.Passive) : Tame a
  | step : Tame .step
  | steps (n : Nat) : Tame (.steps n)
  | run : Tame .run
  | runCooperatively (paced : Bool) : Tame (.runCooperatively paced)
  | whenDepth (n : Nat) {body : List Action} (h : ∀ a ∈ body, Tame a) : Tame (.whenDepth n body)

namespace Session

variable {s t u : Session}

/-- A session in which nothing has been done with a program. -/
def Fresh (s : Session) (p : Program) : Prop :=
  s.handlers = [] ∧
    ∃ source sink log, s.machine = { Machine.start p source sink with log := log }

/-- What a host does in one go without driving the machine. -/
def Tends (s t : Session) : Prop :=
  ∃ (fuel : Nat) (a : Action) (r : Result Reply),
    a.Passive ∧ perform fuel a s = some r ∧ t = endState r

/-- What a host can do next.  A handler given by actions is one that `perform` knows; beyond these,
an operation may be handled by any finite sequence of passive actions, chosen in view of what came
before and continued even after a failure, with any result in the end. -/
inductive Move : Session → Session → Prop
  | act {s : Session} {fuel : Nat} {a : Action} {r : Result Reply} (ha : a.Tame)
      (h : perform fuel a s = some r) : Move s (endState r)
  | token (s : Session) (t : Token) : Move s { s with token := t }
  | handle {s : Session} {i : Instruction} {r : Result Unit} (hi : s.machine.fetch? = some i)
      (ho : i.opcode.isSome)
      (h : ReflTransGen Tends { s with machine := s.machine.begin i } (endState r)) :
      Move s (endState (conclude i r))

/-- All installed handlers are passive. -/
def PassiveHandlers (s : Session) : Prop := ∀ h ∈ s.handlers, ∀ a ∈ h.2, Action.Passive a

/-! ### Passive actions -/

/-- What passive actions leave alone. -/
structure Spared (s t : Session) : Prop where
  machine : s.machine.Spared t.machine
  handlers : s.PassiveHandlers → t.PassiveHandlers

theorem Spared.refl (s : Session) : Spared s s := ⟨.refl _, id⟩

theorem Spared.trans (h : Spared s t) (h' : Spared t u) : Spared s u :=
  ⟨h.machine.trans h'.machine, fun hp => h'.handlers (h.handlers hp)⟩

theorem endState_reply {α : Type} (f : α → Reply) (r : Result α) :
    endState (reply f r) = endState r := by
  cases r <;> rfl

theorem endState_lift {α : Type} (act : Act α) (s : Session) :
    endState (s.lift act) = { s with machine := endState (act s.machine) } := by
  unfold lift
  cases act s.machine <;> rfl

theorem spared_lift {α : Type} {act : Act α} (h : ∀ m : Machine, m.Spared (endState (act m)))
    (s : Session) : Spared s (endState (s.lift act)) := by
  rw [endState_lift]
  exact ⟨h s.machine, id⟩

open Machine in
/-- No call of a host drives the machine. -/
theorem spared_call (c : Call) (m : Machine) : m.Spared (endState (c.act m)) := by
  cases c.shape with
  | composed h => exact h.spared m
  | jump target settled => exact spared_jumpToLine m target settled
  | reference param =>
    obtain ⟨operands, hsize, href⟩ := reference_eq m param
    show m.Spared (m.reference param).2
    rw [href]
    exact (Kept.of_stack (o := .pop) .operand
      fun hb => Nat.le_trans hsize hb.operands).spared (by decide)
  | fail e => exact .refl m
  | listing => exact .refl m
  | inspect => exact .refl m

theorem spared_setHandler {o : Opcode} {body : List Action} (hb : ∀ a ∈ body, a.Passive)
    (s : Session) : Spared s (s.setHandler o body) := by
  refine ⟨.refl _, fun hp h hh => ?_⟩
  rcases List.mem_cons.mp hh with rfl | hh
  · exact hb
  · exact hp h (List.mem_filter.mp hh).1

theorem spared_removeHandler (o : Opcode) (s : Session) : Spared s (s.removeHandler o) :=
  ⟨.refl _, fun hp h hh => hp h (List.mem_filter.mp hh).1⟩

/-- A relation that holds across each action, given that it holds across the actions of its body,
holds across actions alone and in a row.  The induction is on the fuel that they share. -/
theorem perform_induct {P : Action → Prop} {R : Session → Session → Prop} (hrefl : ∀ s, R s s)
    (htrans : ∀ {s t u}, R s t → R t u → R s u)
    (h : ∀ fuel, (∀ as s r, (∀ a ∈ as, P a) → performAll fuel as s = some r → R s (endState r)) →
      ∀ a s r, P a → perform (fuel + 1) a s = some r → R s (endState r)) (fuel : Nat) :
    (∀ a s r, P a → perform fuel a s = some r → R s (endState r)) ∧
    (∀ as s r, (∀ a ∈ as, P a) → performAll fuel as s = some r → R s (endState r)) := by
  induction fuel with
  | zero =>
    constructor
    · intro a s r _ h; simp [perform] at h
    · intro as s r _ h; simp [performAll] at h
  | succ fuel ih =>
    refine ⟨h fuel ih.2, fun as s r has hr => ?_⟩
    cases as with
    | nil =>
      simp only [performAll, Option.some.injEq] at hr
      subst hr
      exact hrefl s
    | cons a as =>
      simp only [performAll] at hr
      have ha := has a List.mem_cons_self
      split at hr
      · cases hr
      · next hr' => cases hr; exact ih.1 a s _ ha hr'
      · next hr' =>
        exact htrans (ih.1 a s _ ha hr')
          (ih.2 as _ r (fun b hb => has b (List.mem_cons_of_mem _ hb)) hr)

/-- Passive actions, alone and in a row. -/
theorem spared_passive (fuel : Nat) :
    (∀ (a : Action) (s : Session) (r : Result Reply), a.Passive → perform fuel a s = some r →
      Spared s (endState r)) ∧
    (∀ (as : List Action) (s : Session) (r : Result Unit), (∀ a ∈ as, a.Passive) →
      performAll fuel as s = some r → Spared s (endState r)) := by
  refine perform_induct .refl .trans (fun fuel ih a s r ha h => ?_) fuel
  cases ha with
  | call c =>
    simp only [perform, Option.some.injEq] at h
    subst h
    exact spared_lift (spared_call c) s
  | cancel =>
    simp only [perform, Option.some.injEq] at h
    subst h
    exact ⟨.refl _, id⟩
  | isCancelled =>
    simp only [perform, Option.some.injEq] at h
    subst h
    exact .refl s
  | whenDepth n hbody =>
    simp only [perform] at h
    split at h
    · obtain ⟨r', hr', rfl⟩ := Option.map_eq_some_iff.mp h
      rw [endState_reply]
      exact ih _ s r' hbody hr'
    · cases h; exact .refl s
  | setHandler o hbody =>
    simp only [perform, Option.some.injEq] at h
    subst h
    exact spared_setHandler hbody s
  | removeHandler o =>
    simp only [perform, Option.some.injEq] at h
    subst h
    exact spared_removeHandler o s

theorem spared_tends (h : ReflTransGen Tends s t) : Spared s t := by
  induction h with
  | refl => exact .refl s
  | tail _ hstep ih =>
    obtain ⟨fuel, a, r, ha, hr, rfl⟩ := hstep
    exact ih.trans ((spared_passive fuel).1 a _ r ha hr)

/-! ### Driving the machine -/

/-- A relation that holds across steps, and across what is done between them and after the last. -/
structure Carried (R : Session → Session → Prop) : Prop where
  refl : ∀ s, R s s
  trans : ∀ {s t u}, R s t → R t u → R s u
  step : ∀ {fuel s r}, step fuel s = some r → R s (endState r)
  endRun : ∀ s, R s (endState (s.lift Machine.endRun))
  endCooperativeRun : ∀ s, R s (endState (s.lift Machine.endCooperativeRun))
  pause : ∀ paced s, R s (endState (s.lift (Machine.pause paced)))
  look : ∀ s, R s s.look

section Carried

variable {R : Session → Session → Prop} (hR : Carried R)
include hR

theorem Carried.sequel {α β : Type} {o : Option (Result α)} {k : α → Session → Option (Result β)}
    {r : Result β} (ho : ∀ r, o = some r → R s (endState r))
    (hk : ∀ a t, k a t = some r → R t (endState r)) (h : sequel o k = some r) :
    R s (endState r) := by
  rcases o with _ | ⟨a, t⟩ | ⟨e, t⟩
  · cases h
  · exact hR.trans (ho _ rfl) (hk a t h)
  · cases h
    exact ho _ rfl

theorem Carried.steps {fuel made n : Nat} {r : Result Nat} (h : steps fuel made n s = some r) :
    R s (endState r) := by
  induction fuel generalizing made n s with
  | zero =>
    rw [Session.steps] at h
    cases h
  | succ fuel ih =>
    cases n with
    | zero =>
      rw [Session.steps] at h
      cases h
      exact hR.refl s
    | succ n =>
      rw [steps_succ] at h
      split at h
      · exact hR.sequel (fun _ => hR.step) (fun _ _ => ih) h
      · cases h
        exact hR.refl s

theorem Carried.run {fuel : Nat} {r : Result Unit} (h : run fuel s = some r) :
    R s (endState r) := by
  induction fuel generalizing s with
  | zero =>
    rw [Session.run] at h
    cases h
  | succ fuel ih =>
    rw [run_succ] at h
    split at h
    · exact hR.sequel (fun _ => hR.step) (fun _ _ => ih) h
    · cases h
      exact hR.endRun s

theorem Carried.runCooperatively {paced : Bool} {fuel : Nat} {r : Result Bool}
    (h : runCooperatively paced fuel s = some r) : R s (endState r) := by
  induction fuel generalizing s with
  | zero =>
    rw [Session.runCooperatively] at h
    cases h
  | succ fuel ih =>
    rw [runCooperatively_succ] at h
    refine hR.trans (hR.look s) ?_
    split at h
    · refine hR.sequel (fun _ => hR.step) (fun _ t ht => ?_) h
      refine hR.sequel (fun r' hr => ?_) (fun _ _ => ih) ht
      cases hr
      exact hR.pause paced t
    · cases h
      exact hR.endCooperativeRun s.look

/-- Such a relation holds across everything that drives the machine. -/
theorem Carried.perform {fuel : Nat} {a : Action} {r : Result Reply} (ha : a.Drives)
    (h : perform fuel a s = some r) : R s (endState r) := by
  cases fuel with
  | zero =>
    rw [Session.perform] at h
    cases h
  | succ fuel =>
    cases a with
    | step =>
      obtain ⟨r', hr', rfl⟩ := Option.map_eq_some_iff.mp h
      rw [endState_reply]
      exact hR.step hr'
    | steps n =>
      obtain ⟨r', hr', rfl⟩ := Option.map_eq_some_iff.mp h
      rw [endState_reply]
      exact hR.steps hr'
    | run =>
      obtain ⟨r', hr', rfl⟩ := Option.map_eq_some_iff.mp h
      rw [endState_reply]
      exact hR.run hr'
    | runCooperatively paced =>
      obtain ⟨r', hr', rfl⟩ := Option.map_eq_some_iff.mp h
      rw [endState_reply]
      exact hR.runCooperatively hr'
    | _ => exact ha.elim

end Carried

/-- What holds of a session at every moment outside a step. -/
structure Sound (s : Session) : Prop where
  machine : s.machine.WellFormed
  handlers : s.PassiveHandlers

/-- `t` may come after `s`. -/
def Follows (s t : Session) : Prop :=
  s.Sound → t.Sound ∧ t.machine.program = s.machine.program ∧
    (s.machine.killed = true → t.machine.killed = true)

theorem Follows.refl (s : Session) : Follows s s := fun hs => ⟨hs, rfl, id⟩

theorem Follows.trans (h : Follows s t) (h' : Follows t u) : Follows s u := by
  intro hs
  obtain ⟨ht, hp, hk⟩ := h hs
  obtain ⟨hu, hp', hk'⟩ := h' ht
  exact ⟨hu, hp'.trans hp, fun h => hk' (hk h)⟩

theorem Spared.follows (h : Spared s t) : Follows s t := fun hs =>
  ⟨⟨h.machine.wellFormed hs.machine, h.handlers hs.handlers⟩, h.machine.program, h.machine.killed⟩

theorem endState_conclude (i : Instruction) (r : Result Unit) : ∃ r',
    endState r' = (endState r).machine ∧
    endState (conclude i r) = { endState r with machine := endState (Machine.conclude i r') } := by
  cases r with
  | ok u s =>
    exact ⟨.ok () s.machine, rfl, endState_lift (fun m => Machine.conclude i (.ok () m)) s⟩
  | error e s =>
    exact ⟨.error e s.machine, rfl, endState_lift (fun m => Machine.conclude i (.error e m)) s⟩

/-- A step in which passive actions took the place of the operation. -/
theorem follows_conclude {i : Instruction} {r : Result Unit} (hi : s.machine.fetch? = some i)
    (h : Spared { s with machine := s.machine.begin i } (endState r)) :
    Follows s (endState (conclude i r)) := by
  intro hs
  obtain ⟨r', hr', hc⟩ := endState_conclude i r
  have hu := h.machine.underway (Machine.begin_underway hs.machine hi)
  have hk := h.machine.killed
  rw [← hr'] at hu hk
  rw [hc]
  obtain ⟨hprog, hkill⟩ := Machine.conclude_keeps i r'
  refine ⟨⟨Machine.conclude_wellFormed hu, h.handlers hs.handlers⟩, ?_, fun hk' => hkill (hk hk')⟩
  exact hprog.trans ((congrArg Machine.program hr').trans h.machine.program)

/-- A step by the built-in operation. -/
theorem follows_machineStep {i : Instruction} (hi : s.machine.fetch? = some i) :
    Follows s (endState (s.lift Machine.step)) := by
  intro hs
  rw [endState_lift, Machine.step_of_fetch hi]
  obtain ⟨hu, hprog, hk⟩ := Machine.executeInstruction_underway hs.machine hi
  obtain ⟨hprog', hk'⟩ := Machine.conclude_keeps i
    (Machine.executeInstruction i (s.machine.begin i))
  exact ⟨⟨Machine.conclude_wellFormed hu, hs.handlers⟩, hprog'.trans hprog, fun h => hk' (hk h)⟩

theorem follows_step {fuel : Nat} {r : Result Unit} (h : step fuel s = some r) :
    Follows s (endState r) := by
  cases fuel with
  | zero => simp [step] at h
  | succ fuel =>
    simp only [step] at h
    split at h
    · cases h; exact .refl s
    · next i hi =>
      split at h
      · cases h; exact follows_machineStep hi
      · next body hbody =>
        obtain ⟨r', hr', rfl⟩ := Option.map_eq_some_iff.mp h
        intro hs
        obtain ⟨o, -, ho⟩ := Option.bind_eq_some_iff.mp hbody
        obtain ⟨l₁, l₂, hl, -⟩ := List.lookup_eq_some_iff.mp ho
        have hp : ∀ a ∈ body, a.Passive := hs.handlers (o, body) (by rw [hl]; simp)
        exact follows_conclude hi ((spared_passive fuel).2 body _ r' hp hr') hs

open Machine in
theorem spared_endRun (m : Machine) : m.Spared (endState (endRun m)) := by
  unfold endRun
  refine spared_bind (fun m => Composed.flush.spared m) (fun _ m => ?_) m
  rw [modify_eq]
  exact .note m _

open Machine in
theorem spared_endCooperativeRun (m : Machine) : m.Spared (endState (endCooperativeRun m)) := by
  unfold endCooperativeRun
  refine spared_bind spared_endRun (fun _ m => ?_) m
  exact .refl m

open Machine in
theorem spared_pause (paced : Bool) (m : Machine) : m.Spared (endState (pause paced m)) := by
  unfold pause
  split
  · exact Composed.flush.spared m
  · exact .refl m

open Machine in
theorem spared_heed (m : Machine) (cancelled : Bool) : m.Spared (m.heed cancelled) := by
  unfold heed
  split
  · exact (Spared.note m _).trans (spared_kill _)
  · exact .refl m

theorem carried_follows : Carried Follows where
  refl := .refl
  trans := .trans
  step := follows_step
  endRun s := (spared_lift spared_endRun s).follows
  endCooperativeRun s := (spared_lift spared_endCooperativeRun s).follows
  pause paced s := (spared_lift (spared_pause paced) s).follows
  look _ := Spared.follows ⟨spared_heed _ _, id⟩

/-- Tame actions, alone and in a row. -/
theorem follows_tame (fuel : Nat) :
    (∀ (a : Action) (s : Session) (r : Result Reply), a.Tame → perform fuel a s = some r →
      Follows s (endState r)) ∧
    (∀ (as : List Action) (s : Session) (r : Result Unit), (∀ a ∈ as, a.Tame) →
      performAll fuel as s = some r → Follows s (endState r)) := by
  refine perform_induct .refl .trans (fun fuel ih a s r ha h => ?_) fuel
  cases ha with
  | passive ha => exact ((spared_passive (fuel + 1)).1 a s r ha h).follows
  | step | steps | run | runCooperatively => exact carried_follows.perform (by trivial) h
  | whenDepth n hbody =>
    simp only [perform] at h
    split at h
    · obtain ⟨r', hr', rfl⟩ := Option.map_eq_some_iff.mp h
      rw [endState_reply]
      exact ih _ s r' hbody hr'
    · cases h; exact .refl s

/-! ### Moves -/

theorem follows_move (h : Move s t) : Follows s t := by
  cases h with
  | act ha h => exact (follows_tame _).1 _ s _ ha h
  | token t => exact Spared.follows ⟨.refl _, id⟩
  | handle hi _ h => exact follows_conclude hi (spared_tends h)

theorem follows_moves (h : ReflTransGen Move s t) : Follows s t := by
  induction h with
  | refl => exact .refl s
  | tail _ hmove ih => exact ih.trans (follows_move hmove)

theorem Fresh.sound {p : Program} (h : s.Fresh p) : s.Sound := by
  obtain ⟨hh, source, sink, log, hm⟩ := h
  refine ⟨?_, fun h hmem => by rw [hh] at hmem; cases hmem⟩
  have hw := Machine.start_wellFormed p source sink
  rw [hm]
  exact ⟨⟨hw.bounded.operands, hw.bounded.registers, hw.bounded.calls⟩, hw.pc_le, hw.calls,
    hw.faults, hw.killed⟩

/-- **Every machine that a host reaches is well formed.**  From a fresh session of any program, by
any moves: the stacks are within their bounds, the pointer is within the program, every line to
return to is that of a `GOSUB` of the program, there is at most one fault and it has stopped the
machine; and a machine that was stopped once is stopped in every session reached from there. -/
theorem reachable_wellFormed {p : Program} {s₀ s t : Session} (h₀ : s₀.Fresh p)
    (hs : ReflTransGen Move s₀ s) (ht : ReflTransGen Move s t) :
    s.machine.program = p ∧
    s.machine.operands.size ≤ 65535 ∧ s.machine.registers.size ≤ 65535 ∧
    s.machine.calls.size ≤ 65535 ∧
    s.machine.pc ≤ p.size ∧
    (∀ l ∈ s.machine.calls.entries, ∃ i ∈ p.toList, i.line = l ∧ i.opcode = some .gosub) ∧
    s.machine.faults.length ≤ 1 ∧
    (s.machine.faults ≠ [] → s.machine.killed = true) ∧
    (s.machine.killed = true → t.machine.killed = true) := by
  obtain ⟨hsound, hprog, -⟩ := follows_moves hs h₀.sound
  obtain ⟨-, -, hkilled⟩ := follows_moves ht hsound
  obtain ⟨-, source, sink, log, hm⟩ := h₀
  have hp : s.machine.program = p := by rw [hprog, hm]; rfl
  obtain ⟨hb, hpc, hcalls, hfaults, hkill⟩ := hsound.machine
  unfold Machine.CallsFromGosub at hcalls
  rw [hp] at hpc hcalls
  exact ⟨hp, hb.operands, hb.registers, hb.calls, hpc, hcalls, hfaults, hkill, hkilled⟩

/-- A call of a subroutine of one instruction. -/
def subroutine : Program :=
  .ofInstructions [.ofMnemonic 10 "GOSUB" ["30"],
    .ofMnemonic 20 "EXIT" [], .ofMnemonic 30 "SWAP" []]

/-- A host that handles the subroutine by a jump to the call, past which the step then moves on. -/
def subroutineHandled : Session :=
  { machine := .start subroutine (.ofText "") .capture
    handlers := [(.swap, [.call (.jump 10 false)])] }

/-- The host installs its handler, makes the call and lets the handler jump, and stops. -/
theorem reachable_wellFormed_subroutine :
    ∃ s₀ s t : Session, s₀.Fresh subroutine ∧ ReflTransGen Move s₀ s ∧ ReflTransGen Move s t ∧
      s.machine.calls.entries = [10] ∧ s.machine.pc = 1 ∧ s.machine.faults.length ≤ 1 ∧
      (∀ l ∈ s.machine.calls.entries,
        ∃ i ∈ subroutine.toList, i.line = l ∧ i.opcode = some .gosub) ∧
      t.machine.killed = true := by
  have hfresh : Fresh { machine := .start subroutine (.ofText "") .capture } subroutine :=
    ⟨rfl, .ofText "", .capture, #[], rfl⟩
  -- the handler is installed
  have hset : perform 1 (.setHandler .swap [.call (.jump 10 false)])
      { machine := .start subroutine (.ofText "") .capture } =
        some (.ok .done subroutineHandled) := rfl
  have hpassive : ∀ a ∈ [Action.call (.jump 10 false)], a.Passive := by
    intro a ha
    obtain rfl := List.mem_singleton.mp ha
    exact .call _
  -- two steps: the call, and the handler in the subroutine
  have hview : (perform 9 (.steps 2) subroutineHandled).map
      (fun r => ((endState r).machine.calls.entries, (endState r).machine.pc)) =
        some ([10], 1) := by decide +kernel
  obtain ⟨r, hr, hcalls⟩ := Option.map_eq_some_iff.mp hview
  rw [Prod.mk.injEq] at hcalls
  have hs : ReflTransGen Move { machine := .start subroutine (.ofText "") .capture } (endState r) :=
    .tail (.single (.act (.passive (.setHandler .swap hpassive)) hset)) (.act (.steps 2) hr)
  have hkill : perform 1 (.call .kill) (endState r) =
      some ((endState r).lift (Call.act .kill)) := rfl
  have ht : ReflTransGen Move (endState r) (endState ((endState r).lift (Call.act .kill))) :=
    .single (.act (.passive (.call .kill)) hkill)
  obtain ⟨-, -, -, -, -, hgosub, hfaults, -⟩ := reachable_wellFormed hfresh hs ht
  exact ⟨_, _, _, hfresh, hs, ht, hcalls.1, hcalls.2, hfaults, hgosub, rfl⟩

end Session

end Stackline
