import Stackline.Proofs.Machine.Frame

/-!
# Flushes

A run that pauses brings its output out more often than one that does not, and that is all by which
the two can be told apart.  `m.unflushed` is `m` with its flushes forgotten.  As long as no flush
fails, machines that agree so far (`Agree`) do the same in a step (`agree_step`) and at the end of a
run, and a flush leads to a machine that agrees with the one before (`flush_agree`).
-/

namespace Stackline

namespace Sink

variable {s : Sink}

/-- No flush fails from now on. -/
def Flushes : Sink → Prop
  | writer w => w.failFlush ≤ w.flushes
  | _ => True

/-- The sink with its flushes forgotten. -/
def unflushed : Sink → Sink
  | writer w => writer { w with flushes := 0 }
  | s => s

theorem flush_of_flushes (h : s.Flushes) : ∃ xs, s.flush.1 = .ok xs ∧ (∀ x ∈ xs, x = .flush) ∧
    s.flush.2.unflushed = s.unflushed ∧ s.flush.2.Flushes := by
  cases s with
  | capture => exact ⟨[], rfl, by simp, rfl, trivial⟩
  | callback => exact ⟨[], rfl, by simp, rfl, trivial⟩
  | writer w =>
    have hw : w.failFlush ≤ w.flushes := h
    refine ⟨[.flush], if_neg ?_, by simp, rfl, Nat.le_succ_of_le hw⟩
    show ¬w.flushes + 1 = w.failFlush
    omega

theorem flushes_write (text : String) (h : s.Flushes) : (s.write text).2.Flushes := by
  cases s with
  | capture => trivial
  | callback => trivial
  | writer w =>
    have hw : w.failFlush ≤ w.flushes := h
    simp only [write]
    split <;> exact hw

/-- A write takes no notice of flushes. -/
theorem write_unflushed (s : Sink) (text : String) :
    s.unflushed.write text = ((s.write text).1, (s.write text).2.unflushed) := by
  cases s with
  | capture => rfl
  | callback => rfl
  | writer w =>
    simp only [unflushed, write]
    split <;> rfl

end Sink

namespace Machine

variable {α : Type} {o : Opcode} {act : Act α} {m m' m₁ : Machine}

/-- The machine with another record of what passed to the host as output. -/
def refit (sink : Sink) (xs : Array Exchange) (m : Machine) : Machine :=
  { m with sink, exchanges := xs }

/-- The machine with its flushes forgotten. -/
def unflushed (m : Machine) : Machine :=
  m.refit m.sink.unflushed (m.exchanges.filter (· ≠ .flush))

/-- Machines that are the same but for their flushes, none of which can fail. -/
structure Agree (m m' : Machine) : Prop where
  same : m'.unflushed = m.unflushed
  left : m.sink.Flushes
  right : m'.sink.Flushes

theorem Agree.refl (h : m.sink.Flushes) : Agree m m := ⟨rfl, h, h⟩

theorem Agree.trans (h : Agree m m') (h' : Agree m' m₁) : Agree m m₁ :=
  ⟨h'.same.trans h.same, h.left, h'.right⟩

theorem Agree.symm (h : Agree m m') : Agree m' m := ⟨h.same.symm, h.right, h.left⟩

theorem Agree.sink (h : Agree m m') : m'.sink.unflushed = m.sink.unflushed :=
  congrArg Machine.sink h.same

theorem Agree.exchanges (h : Agree m m') :
    m'.exchanges.filter (· ≠ .flush) = m.exchanges.filter (· ≠ .flush) :=
  congrArg Machine.exchanges h.same

/-- What takes no notice of output is the same of machines that agree. -/
theorem Agree.view {f : Machine → α} (hf : ∀ m sink xs, f (refit sink xs m) = f m)
    (h : Agree m m') : f m' = f m :=
  calc f m' = f m'.unflushed := (hf m' _ _).symm
    _ = f m.unflushed := congrArg f h.same
    _ = f m := hf m _ _

theorem Agree.with_output (h : Agree m m') {sink sink' : Sink} {xs xs' : Array Exchange}
    (hs : sink'.unflushed = sink.unflushed)
    (hx : xs'.filter (· ≠ .flush) = xs.filter (· ≠ .flush)) (hf : sink.Flushes)
    (hf' : sink'.Flushes) : Agree (m.refit sink xs) (m'.refit sink' xs') := by
  refine ⟨?_, hf, hf'⟩
  show m'.unflushed.refit sink'.unflushed (xs'.filter (· ≠ .flush)) =
    m.unflushed.refit sink.unflushed (xs.filter (· ≠ .flush))
  rw [h.same, hs, hx]

theorem join_output_filter (xs : List Exchange) :
    String.join ((xs.filter (· ≠ .flush)).map Exchange.output) =
      String.join (xs.map Exchange.output) := by
  induction xs with
  | nil => rfl
  | cons x xs ih =>
    by_cases hx : x = .flush
    · rw [hx, List.filter_cons_of_neg (by simp), ih]
      simp [Exchange.output, String.join_cons]
    · rw [List.filter_cons_of_pos (by simpa using hx), List.map_cons, List.map_cons,
        String.join_cons, String.join_cons, ih]

/-- Flushes are no output. -/
theorem written_unflushed (m : Machine) : m.unflushed.written = m.written := by
  have hxs : m.unflushed.exchanges.toList = m.exchanges.toList.filter (· ≠ .flush) :=
    Array.toList_filter
  unfold written
  rw [hxs, join_output_filter]

theorem Agree.written (h : Agree m m') : m'.written = m.written := by
  rw [← written_unflushed m', h.same, written_unflushed]

/-! ### Acts that take no notice of output -/

/-- An act neither looks at the record of output nor changes it.  Of the parts of operations only
writes, flushes and prompts are different. -/
def Blind (act : Act α) : Prop :=
  ∀ m sink xs, act (m.refit sink xs) = mapState (refit sink xs) (act m)

theorem Blind.agree (hact : Blind act) (h : Agree m m') : Results Agree (act m) (act m') := by
  -- both results are the one without flushes, with different records of output
  have hm : act m = mapState (Machine.refit m.sink m.exchanges) (act m.unflushed) :=
    hact m.unflushed m.sink m.exchanges
  have hm' : act m' = mapState (Machine.refit m'.sink m'.exchanges) (act m'.unflushed) :=
    hact m'.unflushed m'.sink m'.exchanges
  rw [h.same] at hm'
  rw [hm, hm']
  cases act m.unflushed with
  | ok a m₁ =>
    exact .ok a ((Agree.refl (m := m₁.refit m.sink m.exchanges) h.left).with_output h.sink
      h.exchanges h.left h.right)
  | error e m₁ =>
    exact .error e ((Agree.refl (m := m₁.refit m.sink m.exchanges) h.left).with_output h.sink
      h.exchanges h.left h.right)

theorem Agree.map (h : Agree m m') (g : Machine → Machine)
    (hg : ∀ m sink xs, g (refit sink xs m) = (g m).refit sink xs) : Agree (g m) (g m') := by
  have hblind : Blind (modify g : Act Unit) := fun m sink xs =>
    congrArg (EStateM.Result.ok ()) (hg m sink xs)
  exact (hblind.agree h).endState

theorem beside_refit (sink : Sink) (xs : Array Exchange) : Beside (refit sink xs) :=
  { stack := fun _ name => by cases name <;> rfl
    withStack := fun _ name _ => by cases name <;> rfl
    input := fun _ => rfl
    withInput := fun _ _ => rfl }

theorem Local.blind (h : Local act) : Blind act := fun m sink xs => h _ (beside_refit sink xs) m

theorem blind_checkDepth (stack : StackName) (actual expected : Nat) :
    Blind (checkDepth stack actual expected) := by
  intro m sink xs
  unfold checkDepth
  by_cases h : expected ≤ actual
  · rw [if_pos h, if_pos h]
    rfl
  · rw [if_neg h, if_neg h]
    rfl

theorem jumpToLine_refit (m : Machine) (target : Int) (settled : Bool) (sink : Sink)
    (xs : Array Exchange) :
    (m.refit sink xs).jumpToLine target settled = (m.jumpToLine target settled).refit sink xs := by
  have hx : (m.refit sink xs).index.resolve target = m.index.resolve target := rfl
  unfold jumpToLine
  rw [hx]
  cases m.index.resolve target <;> rfl

theorem jump_refit (m : Machine) (sink : Sink) (xs : Array Exchange) :
    (m.refit sink xs).jump = m.jump.refit sink xs := by
  have ht : (m.refit sink xs).target? = m.target? := rfl
  unfold jump
  rw [ht]
  cases m.target? with
  | none => rfl
  | some param =>
    simp only [(beside_refit sink xs).reference]
    obtain ⟨v, m₁⟩ := m.reference param
    cases v with
    | none => rfl
    | some v =>
      simp only
      cases v.toInteger? with
      | none => rfl
      | some n => exact jumpToLine_refit m₁ n.toInt true sink xs

theorem blind_callLine : Blind callLine := by
  intro m sink xs
  cases hc : m.current with
  | none =>
    rw [callLine_of_none hc, callLine_of_none (m := m.refit sink xs) hc]
    rfl
  | some i =>
    by_cases h : m.calls.size < Stack.capacity
    · rw [callLine_of_lt hc h, callLine_of_lt (m := m.refit sink xs) hc h]
      exact congrArg (EStateM.Result.ok ()) (jump_refit (m.withCalls _) sink xs)
    · rw [Nat.not_lt] at h
      rw [callLine_of_full hc h, callLine_of_full (m := m.refit sink xs) hc h]
      rfl

theorem blind_returnToLine : Blind returnToLine := by
  intro m sink xs
  have hl : (m.refit sink xs).calls = m.calls := rfl
  unfold returnToLine
  rw [hl]
  cases m.calls.pop with
  | ok line calls =>
    exact congrArg (EStateM.Result.ok ()) (jumpToLine_refit { m with calls } _ true sink xs)
  | error f calls => rfl

/-! ### Output and prompts -/

theorem filter_append_eq {xs xs' : Array Exchange}
    (h : xs'.filter (· ≠ .flush) = xs.filter (· ≠ .flush)) (ys : Array Exchange) :
    (xs' ++ ys).filter (· ≠ .flush) = (xs ++ ys).filter (· ≠ .flush) := by
  simp only [Array.filter_append, Array.size_append, h]

theorem agree_write (text : String) (h : Agree m m') :
    Results Agree (write text m) (write text m') := by
  have hw := m.sink.write_unflushed text
  rw [← h.sink, Sink.write_unflushed, Prod.mk.injEq] at hw
  obtain ⟨hr, hs⟩ := hw
  have hf := Sink.flushes_write text h.left
  have hf' := Sink.flushes_write text h.right
  unfold write exchange
  simp only [hr]
  cases (m.sink.write text).1 with
  | ok xs => exact .ok () (h.with_output hs (filter_append_eq h.exchanges _) hf hf')
  | error e => exact .error _ (h.with_output hs h.exchanges hf hf')

theorem flush_agree (h : m.sink.Flushes) : ∃ m₁, flush m = .ok () m₁ ∧ Agree m m₁ := by
  obtain ⟨xs, hok, hxs, hsink, hf⟩ := Sink.flush_of_flushes h
  refine ⟨m.refit m.sink.flush.2 (m.exchanges ++ xs.toArray), ?_, ?_⟩
  · unfold flush exchange
    simp only [hok]
    rfl
  · refine (Agree.refl h).with_output hsink ?_ h hf
    have hnone : xs.toArray.filter (· ≠ .flush) = #[] := by simpa using hxs
    simp only [Array.filter_append, Array.size_append, hnone, Array.append_empty]

theorem agree_flush (h : Agree m m') : Results Agree (flush m) (flush m') := by
  obtain ⟨m₁, hm, h₁⟩ := flush_agree h.left
  obtain ⟨m₁', hm', h₁'⟩ := flush_agree h.right
  rw [hm, hm']
  exact .ok () (h₁.symm.trans (h.trans h₁'))

theorem agree_prompt (s : String) (h : Agree m m') : Results Agree (prompt s m) (prompt s m') := by
  have hp : m'.input.prompt s = m.input.prompt s :=
    h.view (f := fun m => m.input.prompt s) fun _ _ _ => rfl
  have happ := h.with_output h.sink (filter_append_eq h.exchanges (m.input.prompt s).1.toArray)
    h.left h.right
  unfold prompt
  rw [hp]
  simp only
  cases (m.input.prompt s).2 with
  | ok u => exact .ok () happ
  | error e => exact .error _ happ

/-! ### Operations -/

theorem Composed.agree (hact : Composed o act) (h : Agree m m') :
    Results Agree (act m) (act m') := by
  induction hact generalizing m m' with
  | pure a => exact (local_pure a).blind.agree h
  | bind ha hf iha ihf => exact results_bind (iha h) fun a _ _ h₁ => ihf a h₁
  | @look _ f hf ih =>
    have hl := ih m.current m.operands m.registers h
    have hv : f m'.current m'.operands m'.registers = f m.current m.operands m.registers :=
      h.view (f := fun m => f m.current m.operands m.registers) fun _ _ _ => rfl
    show Results Agree (f m.current m.operands m.registers m)
      (f m'.current m'.operands m'.registers m')
    rw [hv]
    exact hl
  | requireOn name n =>
    refine Blind.agree (fun m sink xs => ?_) h
    unfold Machine.requireOn
    rw [(beside_refit sink xs).stack]
    exact blind_checkDepth name _ n m sink xs
  | pushOn name v => exact (local_onStack name _).blind.agree h
  | pushAll vs => exact (local_onStack .operand _).blind.agree h
  | peekOn name depth => exact (local_peekOn name depth).blind.agree h
  | takeFrom name => exact (local_onStack name _).blind.agree h
  | write s => exact agree_write s h
  | flush => exact agree_flush h
  | prompt s => exact agree_prompt s h
  | reading reader => exact (local_reading reader).blind.agree h
  | computed r => exact (local_computed r).blind.agree h
  | literal s => exact (local_literal s).blind.agree h
  | unforeseen => exact local_unforeseen.blind.agree h
  | jump => exact .ok () (h.map Machine.jump jump_refit)
  | call ho => exact blind_callLine.agree h
  | ret => exact blind_returnToLine.agree h
  | report => exact Blind.agree (fun _ _ _ => rfl) h
  | kill => exact .ok () (h.map Machine.kill fun _ _ _ => rfl)

/-! ### Steps and ends of runs -/

theorem agree_conclude (i : Instruction) {r r' : EStateM.Result Error Machine Unit}
    (h : Results Agree r r') : Results Agree (conclude i r) (conclude i r') := by
  cases h with
  | ok a h =>
    refine .ok () (h.map advance fun m sink xs => ?_)
    have hset : ((m.refit sink xs).branched || (m.refit sink xs).killed) =
      (m.branched || m.killed) := rfl
    unfold advance
    rw [hset]
    split <;> rfl
  | error e h =>
    have hblind : Blind fun m => conclude i (.error e m) := by
      intro m sink xs
      simp only [conclude, keepFault]
      split
      · split <;> rfl
      · rfl
    exact hblind.agree h

theorem agree_executeInstruction (i : Instruction) (h : Agree m m') :
    Results Agree (executeInstruction i m) (executeInstruction i m') := by
  unfold executeInstruction
  cases i.opcode with
  | none => exact .ok () (h.map (note · _) fun _ _ _ => rfl)
  | some o => exact (composed_execute o).agree h

theorem Agree.begin (h : Agree m m') (i : Instruction) : Agree (m.begin i) (m'.begin i) :=
  h.map (Machine.begin · i) fun _ _ _ => rfl

theorem Agree.heed (h : Agree m m') (cancelled : Bool) :
    Agree (m.heed cancelled) (m'.heed cancelled) := by
  refine h.map (Machine.heed · cancelled) fun m sink xs => ?_
  have hk : (m.refit sink xs).killed = m.killed := rfl
  unfold Machine.heed
  rw [hk]
  split <;> rfl

/-- **Machines that agree make the same step.** -/
theorem agree_step (h : Agree m m') : Results Agree (step m) (step m') := by
  have hi : m'.fetch? = m.fetch? := h.view fun _ _ _ => rfl
  unfold step
  rw [hi]
  cases m.fetch? with
  | none => exact .ok () h
  | some i => exact agree_conclude i (agree_executeInstruction i (h.begin i))

theorem agree_pause (paced : Bool) (h : Agree m m') :
    Results Agree (pause paced m) (pause paced m') := by
  have hrun : m'.isRunning = m.isRunning := h.view fun _ _ _ => rfl
  unfold pause
  rw [hrun]
  split
  · exact agree_flush h
  · exact .ok () h

theorem pause_agree (paced : Bool) (h : m.sink.Flushes) :
    ∃ m₁, pause paced m = .ok () m₁ ∧ Agree m m₁ := by
  unfold pause
  split
  · exact flush_agree h
  · exact ⟨m, rfl, .refl h⟩

theorem agree_endRun (h : Agree m m') : Results Agree (endRun m) (endRun m') :=
  results_bind (agree_flush h) fun _ _ _ h₁ =>
    .ok () (h₁.map (fun m => m.note (.finished m.killed)) fun _ _ _ => rfl)

theorem agree_endCooperativeRun (h : Agree m m') :
    Results Agree (endCooperativeRun m) (endCooperativeRun m') := by
  refine results_bind (agree_endRun h) fun _ m₁ m₁' h₁ => ?_
  have hk : m₁'.killed = m₁.killed := h₁.view fun _ _ _ => rfl
  show Results Agree (.ok m₁.killed m₁) (.ok m₁'.killed m₁')
  rw [hk]
  exact .ok _ h₁

/-- Where no flush fails a run ends well. -/
theorem endRun_agree (h : m.sink.Flushes) :
    ∃ m₁, endRun m = .ok () m₁ ∧ Agree (m.note (.finished m.killed)) m₁ := by
  obtain ⟨m₁, hm, h₁⟩ := flush_agree h
  have hk : m₁.killed = m.killed := h₁.view fun _ _ _ => rfl
  refine ⟨m₁.note (.finished m₁.killed), bind_of_ok hm, ?_⟩
  rw [hk]
  exact h₁.map (note · _) fun _ _ _ => rfl

theorem endCooperativeRun_of_ok (h : endRun m = .ok () m₁) :
    endCooperativeRun m = .ok m₁.killed m₁ := bind_of_ok h

theorem endCooperativeRun_of_error {e : Error} (h : endRun m = .error e m₁) :
    endCooperativeRun m = .error e m₁ := bind_of_error h

end Machine

end Stackline
