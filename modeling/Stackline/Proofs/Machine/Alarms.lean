import Stackline.Proofs.Machine.Errors
import Stackline.Proofs.Machine.Fault

/-!
# Alarms

The events of the highest level are the *alarms* of a machine.  A stack that is too short is
announced where it is checked, and any other fault where it is kept, so each fault is announced
once.  `Sounds m r` says what an act begun in `m` has announced: nothing, or that a stack was too
short, and then it failed with that.  Everything put together from the parts of operations is so
(`Composed.sounds`).  A step that fails raises no alarm, and one that keeps a fault raises one that
reports it (`step_alarms`).
-/

namespace Stackline.Machine

variable {α : Type} {o : Opcode} {i : Instruction} {e : Error} {m m₁ m₂ : Machine}

/-- The events of the highest level. -/
def alarms (m : Machine) : List Event := m.log.toList.filter fun ev => ev.level = .error

theorem alarms_note (m : Machine) (ev : Event) :
    (m.note ev).alarms = if ev.level = .error then m.alarms ++ [ev] else m.alarms := by
  unfold alarms note
  rw [Array.toList_push, List.filter_append]
  by_cases h : ev.level = .error
  · simp [h]
  · simp [h]

theorem alarms_of_log (h : m₂.log = m₁.log) : m₂.alarms = m₁.alarms := by
  unfold alarms
  rw [h]

theorem Plain.alarms {act : Act α} (h : Plain act) (m : Machine) :
    (endState (act m)).alarms = m.alarms := by
  obtain ⟨operands, registers, input, sink, exchanges, hm⟩ := h.frame m
  exact alarms_of_log (by rw [hm])

/-! ### Jumps -/

theorem alarms_jumpToLine (m : Machine) (target : Int) (settled : Bool) :
    (m.jumpToLine target settled).alarms = m.alarms := by
  unfold jumpToLine
  split
  · rfl
  · exact alarms_note m (.noSuchLine target)

theorem alarms_jump (m : Machine) : m.jump.alarms = m.alarms := by
  unfold jump
  split
  · exact alarms_note m (.noTarget none)
  · next param _ =>
    obtain ⟨operands, -, href⟩ := reference_eq m param
    have hlog : (m.reference param).2.alarms = m.alarms := alarms_of_log (by rw [href])
    split
    · next v m₁ hv =>
      rw [hv] at hlog
      split
      · exact (alarms_jumpToLine m₁ _ true).trans hlog
      · exact (alarms_note m₁ (.noTarget (some param))).trans hlog
    · next m₁ hv =>
      rw [hv] at hlog
      exact (alarms_note m₁ (.noTarget (some param))).trans hlog

/-! ### Operations -/

/-- What an act begun in `m` has announced. -/
inductive Sounds (m : Machine) : EStateM.Result Error Machine α → Prop
  | silent {r : EStateM.Result Error Machine α} (ha : (endState r).alarms = m.alarms)
      (he : ∀ e m', r = .error e m' → ¬ Announced e) : Sounds m r
  | short {m₁ : Machine} {stack : StackName} {expected : Nat} (ha : m₁.alarms = m.alarms)
      (hc : m₁.current = m.current) (hlt : m₁.depth stack < expected) :
      Sounds m (.error (m₁.shortage stack (m₁.depth stack) expected)
        (m₁.noteShortage stack (m₁.depth stack) expected))

theorem Sounds.of_ok {a : α} (h : m₁.alarms = m.alarms) : Sounds m (.ok a m₁) :=
  .silent h fun _ _ hr => by cases hr

theorem Sounds.of_error (h : m₁.alarms = m.alarms) (he : ¬ Announced e) :
    Sounds m (.error e m₁ : EStateM.Result Error Machine α) := by
  refine .silent h ?_
  rintro _ _ ⟨⟩
  exact he

/-- What was announced before is left out of account. -/
theorem Sounds.since {r : EStateM.Result Error Machine α} (h : Sounds m₁ r)
    (ha : m₁.alarms = m.alarms) (hc : m₁.current = m.current) : Sounds m r := by
  cases h with
  | silent h he => exact .silent (h.trans ha) he
  | short h hc' hlt => exact .short (h.trans ha) (hc'.trans hc) hlt

theorem sounds_callLine (m : Machine) : Sounds m (callLine m) := by
  cases hc : m.current with
  | none =>
    rw [callLine_of_none hc]
    exact .of_error rfl id
  | some i =>
    by_cases h : m.calls.size < Stack.capacity
    · rw [callLine_of_lt hc h]
      exact .of_ok (alarms_jump _)
    · rw [callLine_of_full hc (Nat.not_lt.mp h)]
      exact .of_error rfl id

theorem sounds_returnToLine (m : Machine) : Sounds m (returnToLine m) := by
  cases hl : m.calls.entries with
  | nil =>
    rw [returnToLine_of_nil hl]
    exact .of_error rfl id
  | cons line l =>
    rw [returnToLine_of_cons hl]
    exact .of_ok (alarms_jumpToLine _ _ true)

/-- **What operations announce.** -/
theorem Composed.sounds {act : Act α} (hact : Composed o act) (m : Machine) : Sounds m (act m) := by
  induction hact using Composed.induct_plain generalizing m with
  | plain _ hplain => exact .silent (hplain.alarms m) fun _ _ hr => hplain.error hr
  | @bind _ _ act f ha hf iha ihf =>
    have hfirst := iha m
    have hcur := (ha.kept m).current
    generalize hr : act m = r at hfirst hcur
    cases hfirst with
    | silent h he =>
      cases r with
      | ok a m₁ =>
        rw [bind_of_ok hr]
        exact (ihf a m₁).since h hcur
      | error e m₁ =>
        rw [bind_of_error hr]
        exact .of_error h (he e m₁ rfl)
    | short h hc hlt =>
      rw [bind_of_error hr]
      exact .short h hc hlt
  | look hf ih => exact ih _ _ _ m
  | check name n =>
    by_cases hn : n ≤ m.depth name
    · rw [requireOn_of_le hn]
      exact .of_ok rfl
    · rw [requireOn_of_lt (Nat.not_le.mp hn)]
      exact .short rfl rfl (Nat.not_le.mp hn)
  | jump _ => exact .of_ok (alarms_jump m)
  | call _ => exact sounds_callLine m
  | ret _ => exact sounds_returnToLine m
  | report => exact .of_ok (alarms_note m _)
  | kill => exact .of_ok rfl

theorem sounds_executeInstruction (i : Instruction) (m : Machine) :
    Sounds m (executeInstruction i m) := by
  cases ho : i.opcode with
  | none =>
    unfold executeInstruction
    rw [ho]
    exact .of_ok (alarms_note m _)
  | some o =>
    rw [executeInstruction_of_some ho]
    exact (composed_execute o).sounds m

/-! ### Steps -/

/-- An event reports the fault that the instruction `i` met in the machine `m`.  The underflow of a
stack is told by what the instruction expected there and what there was, any other fault as it is
shown. -/
structure Reports (i : Instruction) (m : Machine) (e : Error) (ev : Event) : Prop where
  line : e.line = some i.line
  underflow : e.kind = .stackUnderflow → ∃ stack expected, m.depth stack < expected ∧
    e.message = i.mnemonic ++ " EXPECTED " ++ toString expected ++ " ENTRIES ON " ++
      stack.title ++ " STACK, GOT " ++ toString (m.depth stack) ∧
    ev.message = "stack underflow" ∧
    ev.fields = [("opcode", i.mnemonic), ("line", toString i.line.toNat),
      ("expected", toString expected), ("actual", toString (m.depth stack)), ("stack", stack.title)]
  other : e.kind ≠ .stackUnderflow → ev.message = "run aborted" ∧
    ev.fields = [("line", toString i.line.toNat), ("mnemonic", i.mnemonic), ("error", e.display)]

/-- A step from `m` has kept the fault `e` of the instruction `i`, and has raised the alarm `ev` that
reports it. -/
structure Alarmed (m : Machine) (i : Instruction) (e : Error) (ev : Event) : Prop where
  fetch : m.fetch? = some i
  fault : (endState (step m)).faults = m.faults ++ [e]
  alarm : (endState (step m)).alarms = m.alarms ++ [ev]
  reports : Reports i m e ev

theorem alarms_advance (m : Machine) : m.advance.alarms = m.alarms := by
  unfold advance
  split <;> rfl

/-- A foreseen underflow has been announced. -/
theorem announced_of_proper (h : e.Proper i) (hk : e.kind = .stackUnderflow) : Announced e := by
  obtain ⟨c, l⟩ := e
  have hc : c.Foreseen := h.foreseen
  cases c with
  | underflow => trivial
  | short | internal | reported => exact hc.elim
  | _ => cases hk

theorem SameStacks.depth (h : SameStacks m₁ m₂) (stack : StackName) :
    m₂.depth stack = m₁.depth stack := by
  cases stack with
  | operand => exact congrArg Stack.size h.operands
  | register => exact congrArg Stack.size h.registers

/-- The check that failed has seen the stacks as they were when the step began. -/
theorem depth_of_short {stack : StackName} {expected : Nat} (hb : m.Bounded)
    (hr : executeInstruction i (m.begin i) = .error (m₁.shortage stack (m₁.depth stack) expected)
      (m₁.noteShortage stack (m₁.depth stack) expected)) : m₁.depth stack = m.depth stack := by
  have hb' : (m.begin i).Bounded := ⟨hb.operands, hb.registers, hb.calls⟩
  cases ho : i.opcode with
  | none =>
    unfold executeInstruction at hr
    rw [ho] at hr
    cases hr
  | some o =>
    have hcareful := careful_execute hb' o
    rw [executeInstruction_of_some ho] at hr
    rw [hr] at hcareful
    cases hcareful with
    | refused h => exact h.toSameStacks.depth stack
    | reported h => cases h
    | unpushed _ hk => cases hk

/-- A step that keeps an underflow. -/
theorem alarmed_of_short {stack : StackName} {expected : Nat} (hb : m.Bounded)
    (hi : m.fetch? = some i) (hc : m₁.current = some i) (ha : m₁.alarms = m.alarms)
    (hf : m₁.faults = m.faults) (hlt : m₁.depth stack < expected)
    (hr : executeInstruction i (m.begin i) = .error (m₁.shortage stack (m₁.depth stack) expected)
      (m₁.noteShortage stack (m₁.depth stack) expected)) :
    Alarmed m i
      { cause := .underflow i.mnemonic stack expected (m.depth stack), line := some i.line }
      (.underflow i.mnemonic i.line expected (m.depth stack) stack) := by
  have hblamed : m₁.blamed = (i.mnemonic, i.line) := by
    unfold blamed
    rw [hc]
  have hdepth := depth_of_short hb hr
  -- the event is there already, so only the fault is added
  have hstep := step_of_fetch hi
  rw [hr, conclude_of_fault i _ rfl] at hstep
  unfold shortage noteShortage at hstep
  rw [hblamed, hdepth] at hstep
  refine ⟨hi, ?_, ?_, rfl, fun _ => ?_, fun hne => absurd rfl hne⟩
  · rw [hstep]
    exact congrArg (· ++ _) hf
  · rw [hstep]
    exact (alarms_note m₁ _).trans (congrArg (· ++ _) ha)
  · exact ⟨stack, expected, hdepth ▸ hlt, rfl, rfl, rfl⟩

/-- A step that keeps another fault. -/
theorem alarmed_of_fault (hi : m.fetch? = some i) (hp : e.Proper i) (he : e.isFault = true)
    (hk : e.kind ≠ .stackUnderflow) (ha : m₁.alarms = m.alarms) (hf : m₁.faults = m.faults)
    (hr : executeInstruction i (m.begin i) = .error e m₁) :
    Alarmed m i (e.inLine i.line) (.aborted i.line i.mnemonic (e.inLine i.line)) := by
  have hkind : (e.inLine i.line).kind ≠ .stackUnderflow := hk
  have hstep := step_of_fetch hi
  rw [hr, conclude_of_fault i _ he] at hstep
  unfold keepFault at hstep
  simp only [if_neg hkind] at hstep
  refine ⟨hi, ?_, ?_, hp.line_inLine, fun h => absurd h hkind, fun _ => ⟨rfl, rfl⟩⟩
  · rw [hstep]
    exact congrArg (· ++ _) hf
  · rw [hstep]
    exact (alarms_note m₁.kill _).trans (congrArg (· ++ _) ha)

/-- **Alarms of a step.**  If it returns an error, it has raised none; otherwise it has kept no fault
and raised no alarm, or it has kept one fault and raised the alarm that reports it. -/
theorem step_alarms (hb : m.Bounded) (hi : m.fetch? = some i) :
    ((endState (step m)).faults = m.faults ∧ (endState (step m)).alarms = m.alarms) ∨
      ((∃ m', step m = .ok () m') ∧ ∃ e ev, Alarmed m i e ev) := by
  have hsounds := sounds_executeInstruction i (m.begin i)
  obtain ⟨hsettles, hfaults, -⟩ := executeInstruction_settles i m
  have hbegin : (m.begin i).alarms = m.alarms := alarms_note m (.step m.pc i.line i.mnemonic)
  have hstep := step_of_fetch hi
  generalize hr : executeInstruction i (m.begin i) = r at hsounds hsettles hfaults hstep
  cases hsounds with
  | silent ha he =>
    cases r with
    | ok _ m₁ =>
      rw [hstep]
      exact .inl ⟨(faults_advance m₁).trans hfaults, (alarms_advance m₁).trans (ha.trans hbegin)⟩
    | error e m₁ =>
      have hp : e.Proper i := hsettles
      cases hfault : e.isFault with
      | false =>
        rw [hstep, conclude_of_not_fault i m₁ hfault]
        exact .inl ⟨hfaults, ha.trans hbegin⟩
      | true =>
        -- a foreseen underflow would have been announced
        have hk : e.kind ≠ .stackUnderflow := fun hk => he e m₁ rfl (announced_of_proper hp hk)
        rw [conclude_of_fault i m₁ hfault] at hstep
        exact .inr ⟨⟨_, hstep⟩, _, _,
          alarmed_of_fault hi hp hfault hk (ha.trans hbegin) hfaults hr⟩
  | short ha hc hlt =>
    rw [conclude_of_fault i _ rfl] at hstep
    exact .inr ⟨⟨_, hstep⟩, _, _,
      alarmed_of_short hb hi hc (ha.trans hbegin) hfaults hlt hr⟩

end Stackline.Machine
