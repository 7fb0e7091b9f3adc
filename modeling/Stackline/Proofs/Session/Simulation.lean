import Stackline.Proofs.Session.Call
import Stackline.Session.Basic

/-!
# Sessions that do the same

Two sessions with related machines, the same handlers and the same token do the same, however deep
handlers drive the machine.  What a relation of machines needs for this is `Steady`: the two look
alike from the session, and whatever a session does with a machine keeps them related.  Fuel that
was enough on one side is enough on the other (`simulates`).  With equal machines this says that
more fuel does not change a result; with machines that agree but for their flushes, that neither do
flushes.
-/

namespace Stackline

/-- What a session needs of a relation of machines. -/
structure Steady (M : Machine → Machine → Prop) : Prop where
  fetch? : ∀ {m m'}, M m m' → m'.fetch? = m.fetch?
  isRunning : ∀ {m m'}, M m m' → m'.isRunning = m.isRunning
  depth : ∀ {m m'}, M m m' → m'.operands.size = m.operands.size
  begin : ∀ {m m'}, M m m' → ∀ i, M (m.begin i) (m'.begin i)
  heed : ∀ {m m'}, M m m' → ∀ cancelled, M (m.heed cancelled) (m'.heed cancelled)
  call : ∀ {m m'}, M m m' → ∀ c : Call, Results M (c.act m) (c.act m')
  step : ∀ {m m'}, M m m' → Results M (Machine.step m) (Machine.step m')
  conclude : ∀ {r r'}, Results M r r' → ∀ i,
    Results M (Machine.conclude i r) (Machine.conclude i r')
  pause : ∀ {m m'}, M m m' → ∀ paced, Results M (Machine.pause paced m) (Machine.pause paced m')
  endRun : ∀ {m m'}, M m m' → Results M (Machine.endRun m) (Machine.endRun m')
  endCooperativeRun : ∀ {m m'}, M m m' →
    Results M (Machine.endCooperativeRun m) (Machine.endCooperativeRun m')

theorem Results.refl {ε σ α : Type} {R : σ → σ → Prop} (h : ∀ s, R s s)
    (r : EStateM.Result ε σ α) : Results R r r := by
  cases r with
  | ok a s => exact .ok a (h s)
  | error e s => exact .error e (h s)

theorem steady_eq : Steady Eq where
  fetch? h := by rw [h]
  isRunning h := by rw [h]
  depth h := by rw [h]
  begin h i := by rw [h]
  heed h c := by rw [h]
  call h c := by rw [h]; exact .refl (fun _ => rfl) _
  step h := by rw [h]; exact .refl (fun _ => rfl) _
  conclude h i := by
    cases h with
    | ok a h => rw [h]; exact .refl (fun _ => rfl) _
    | error e h => rw [h]; exact .refl (fun _ => rfl) _
  pause h paced := by rw [h]; exact .refl (fun _ => rfl) _
  endRun h := by rw [h]; exact .refl (fun _ => rfl) _
  endCooperativeRun h := by rw [h]; exact .refl (fun _ => rfl) _

theorem steady_agree : Steady Machine.Agree where
  fetch? h := h.view fun _ _ _ => rfl
  isRunning h := h.view fun _ _ _ => rfl
  depth h := h.view (f := fun m => m.operands.size) fun _ _ _ => rfl
  begin h i := h.begin i
  heed h c := h.heed c
  call h c := c.agree_act h
  step h := Machine.agree_step h
  conclude h i := Machine.agree_conclude i h
  pause h paced := Machine.agree_pause paced h
  endRun h := Machine.agree_endRun h
  endCooperativeRun h := Machine.agree_endCooperativeRun h

namespace Session

variable {α β : Type} {M : Machine → Machine → Prop} {T : Token → Prop}
  {R : Session → Session → Prop} {s t : Session}

/-! ### Doing one thing after another -/

/-- Go on with what has a result and did not fail. -/
def sequel (o : Option (Result α)) (k : α → Session → Option (Result β)) :
    Option (Result β) :=
  match o with
  | none => none
  | some (.error e s) => some (.error e s)
  | some (.ok a s) => k a s

/-- The session after it has been looked whether its run is cancelled. -/
def look (s : Session) : Session :=
  { s with machine := s.machine.heed s.token.isCancelled, token := s.token.tick }

theorem steps_succ (fuel made n : Nat) (s : Session) : steps (fuel + 1) made (n + 1) s =
    if s.machine.isRunning then sequel (step fuel s) fun _ => steps fuel (made + 1) n
    else some (.ok made s) := by
  rw [steps]
  rcases step fuel s with _ | ⟨⟨⟩, s₁⟩ | ⟨e, s₁⟩ <;> rfl

theorem run_succ (fuel : Nat) (s : Session) : run (fuel + 1) s =
    if s.machine.isRunning then sequel (step fuel s) fun _ => run fuel
    else some (s.lift Machine.endRun) := by
  rw [run]
  rcases step fuel s with _ | ⟨⟨⟩, s₁⟩ | ⟨e, s₁⟩ <;> rfl

theorem runCooperatively_succ (paced : Bool) (fuel : Nat) (s : Session) :
    runCooperatively paced (fuel + 1) s =
      if s.look.machine.isRunning then
        sequel (step fuel s.look) fun _ s₁ =>
          sequel (some (s₁.lift (Machine.pause paced))) fun _ => runCooperatively paced fuel
      else some (s.look.lift Machine.endCooperativeRun) := by
  have hlook : ({ s with
      machine := s.machine.heed s.token.isCancelled, token := s.token.tick } : Session) =
        s.look := rfl
  rw [runCooperatively]
  show (if s.look.machine.isRunning then _ else _) = _
  simp only [hlook]
  rcases step fuel s.look with _ | ⟨⟨⟩, s₁⟩ | ⟨e, s₁⟩
  · rfl
  · simp only [sequel]
    rcases s₁.lift (Machine.pause paced) with ⟨⟨⟩, s₂⟩ | ⟨e, s₂⟩ <;> rfl
  · rfl

theorem performAll_succ (fuel : Nat) (a : Action) (as : List Action) (s : Session) :
    performAll (fuel + 1) (a :: as) s = sequel (perform fuel a s) fun _ => performAll fuel as := by
  rw [performAll]
  rcases perform fuel a s with _ | ⟨v, s₁⟩ | ⟨e, s₁⟩ <;> rfl

/-! ### Related results -/

/-- If there is a result on the left, there is a related one on the right. -/
def Covers (R : Session → Session → Prop) (o o' : Option (Result α)) : Prop :=
  ∀ r, o = some r → ∃ r', o' = some r' ∧ Results R r r'

theorem covers_none {o : Option (Result α)} : Covers R none o := by
  intro r h
  cases h

theorem covers_some {r r' : Result α} (h : Results R r r') : Covers R (some r) (some r') := by
  rintro _ ⟨⟩
  exact ⟨r', rfl, h⟩

theorem Covers.map {o o' : Option (Result α)} {f : Result α → Result β} (h : Covers R o o')
    (hf : ∀ r r', Results R r r' → Results R (f r) (f r')) : Covers R (o.map f) (o'.map f) := by
  intro r hr
  obtain ⟨r₁, hr₁, rfl⟩ := Option.map_eq_some_iff.mp hr
  obtain ⟨r₁', rfl, h₁⟩ := h r₁ hr₁
  exact ⟨f r₁', rfl, hf r₁ r₁' h₁⟩

theorem Covers.sequel {o o' : Option (Result α)} {k k' : α → Session → Option (Result β)}
    (h : Covers R o o') (hk : ∀ a s t, R s t → Covers R (k a s) (k' a t)) :
    Covers R (sequel o k) (sequel o' k') := by
  cases o with
  | none => exact covers_none
  | some r =>
    obtain ⟨r', rfl, hr⟩ := h r rfl
    cases hr with
    | ok a hst => exact hk a _ _ hst
    | error e hst => exact covers_some (.error e hst)

theorem results_reply (f : α → Reply) {r r' : Result α} (h : Results R r r') :
    Results R (reply f r) (reply f r') := by
  cases h with
  | ok a h => exact .ok (f a) h
  | error e h => exact .error e h

/-- Sessions with related machines, the same handlers and the same token, of which something is
known. -/
structure Paired (M : Machine → Machine → Prop) (T : Token → Prop) (s t : Session) : Prop where
  machine : M s.machine t.machine
  handlers : t.handlers = s.handlers
  token : t.token = s.token
  known : T s.token

theorem Paired.with_machine (h : Paired M T s t) {m m' : Machine} (hm : M m m') :
    Paired M T { s with machine := m } { t with machine := m' } :=
  ⟨hm, h.handlers, h.token, h.known⟩

theorem Paired.lift {act : Act α} (h : Paired M T s t)
    (hact : Results M (act s.machine) (act t.machine)) :
    Results (Paired M T) (s.lift act) (t.lift act) := by
  unfold Session.lift
  generalize act s.machine = r at hact
  generalize act t.machine = r' at hact
  cases hact with
  | ok a hm => exact .ok a (h.with_machine hm)
  | error e hm => exact .error e (h.with_machine hm)

theorem Paired.handler? (h : Paired M T s t) : t.handler? = s.handler? := by
  unfold Session.handler?
  rw [h.handlers]

theorem results_conclude (hM : Steady M) (i : Instruction) {r r' : Result Unit}
    (h : Results (Paired M T) r r') : Results (Paired M T) (conclude i r) (conclude i r') := by
  cases h with
  | ok a h =>
    rw [conclude, conclude]
    exact h.lift (hM.conclude (.ok () h.machine) i)
  | error e h =>
    rw [conclude, conclude]
    exact h.lift (hM.conclude (.error e h.machine) i)

/-! ### The simulation -/

/-- What is known of a token stays so when it is looked at or cancelled. -/
structure Lasting (T : Token → Prop) : Prop where
  tick : ∀ {t : Token}, T t → T t.tick
  cancel : ∀ {t : Token}, T t → T t.cancel

/-- Paired sessions do the same, with fuel `n` on the left and `n'` on the right. -/
structure Simulates (M : Machine → Machine → Prop) (T : Token → Prop) (n n' : Nat) : Prop where
  step : ∀ {s t}, Paired M T s t → Covers (Paired M T) (step n s) (step n' t)
  steps : ∀ {s t}, Paired M T s t → ∀ made k,
    Covers (Paired M T) (steps n made k s) (steps n' made k t)
  run : ∀ {s t}, Paired M T s t → Covers (Paired M T) (run n s) (run n' t)
  runCooperatively : ∀ {s t}, Paired M T s t → ∀ paced,
    Covers (Paired M T) (runCooperatively paced n s) (runCooperatively paced n' t)
  perform : ∀ {s t}, Paired M T s t → ∀ a, Covers (Paired M T) (perform n a s) (perform n' a t)
  performAll : ∀ {s t}, Paired M T s t → ∀ as,
    Covers (Paired M T) (performAll n as s) (performAll n' as t)

theorem Paired.look (hM : Steady M) (hT : Lasting T) (h : Paired M T s t) :
    Paired M T s.look t.look where
  machine := by
    unfold Session.look
    rw [h.token]
    exact hM.heed h.machine _
  handlers := h.handlers
  token := congrArg Token.tick h.token
  known := hT.tick h.known

section Fuel

variable {n n' : Nat} (hM : Steady M) (ih : Simulates M T n n') (h : Paired M T s t)
include hM ih h

theorem covers_step : Covers (Paired M T) (step (n + 1) s) (step (n' + 1) t) := by
  have hfetch := hM.fetch? h.machine
  simp only [step, hfetch, h.handler?]
  cases s.machine.fetch? with
  | none => exact covers_some (.ok () h)
  | some i =>
    simp only
    cases i.opcode.bind s.handler? with
    | none => exact covers_some (h.lift (hM.step h.machine))
    | some body =>
      have hbegin := h.with_machine (hM.begin h.machine i)
      exact (ih.performAll hbegin body).map fun _ _ => results_conclude hM i

theorem covers_steps (made k : Nat) :
    Covers (Paired M T) (steps (n + 1) made k s) (steps (n' + 1) made k t) := by
  cases k with
  | zero => exact covers_some (.ok made h)
  | succ k =>
    rw [steps_succ, steps_succ, hM.isRunning h.machine]
    split
    · exact (ih.step h).sequel fun _ s₁ t₁ h₁ => ih.steps h₁ (made + 1) k
    · exact covers_some (.ok made h)

theorem covers_run : Covers (Paired M T) (run (n + 1) s) (run (n' + 1) t) := by
  rw [run_succ, run_succ, hM.isRunning h.machine]
  split
  · exact (ih.step h).sequel fun _ s₁ t₁ h₁ => ih.run h₁
  · exact covers_some (h.lift (hM.endRun h.machine))

theorem covers_runCooperatively (hT : Lasting T) (paced : Bool) :
    Covers (Paired M T) (runCooperatively paced (n + 1) s) (runCooperatively paced (n' + 1) t) := by
  have hlook := h.look hM hT
  rw [runCooperatively_succ, runCooperatively_succ, hM.isRunning hlook.machine]
  split
  · refine (ih.step hlook).sequel fun _ s₁ t₁ h₁ => ?_
    exact (covers_some (h₁.lift (hM.pause h₁.machine paced))).sequel fun _ s₂ t₂ h₂ =>
      ih.runCooperatively h₂ paced
  · exact covers_some (hlook.lift (hM.endCooperativeRun hlook.machine))

theorem covers_perform (hT : Lasting T) (a : Action) :
    Covers (Paired M T) (perform (n + 1) a s) (perform (n' + 1) a t) := by
  cases a with
  | call c => exact covers_some (h.lift (hM.call h.machine c))
  | step => exact (ih.step h).map fun _ _ => results_reply _
  | steps k => exact (ih.steps h 0 k).map fun _ _ => results_reply _
  | run => exact (ih.run h).map fun _ _ => results_reply _
  | runCooperatively paced => exact (ih.runCooperatively h paced).map fun _ _ => results_reply _
  | cancel =>
    exact covers_some (.ok _ ⟨h.machine, h.handlers, congrArg Token.cancel h.token,
      hT.cancel h.known⟩)
  | isCancelled =>
    simp only [perform, h.token]
    exact covers_some (.ok _ h)
  | whenDepth k body =>
    simp only [perform, hM.depth h.machine]
    split
    · exact (ih.performAll h body).map fun _ _ => results_reply _
    · exact covers_some (.ok _ h)
  | setHandler o body =>
    refine covers_some (.ok _ ⟨h.machine, ?_, h.token, h.known⟩)
    simp only [Session.setHandler, h.handlers]
  | removeHandler o =>
    simp only [perform, h.handler?]
    refine covers_some (.ok _ ⟨h.machine, ?_, h.token, h.known⟩)
    simp only [Session.removeHandler, h.handlers]

omit hM in
theorem covers_performAll (as : List Action) :
    Covers (Paired M T) (performAll (n + 1) as s) (performAll (n' + 1) as t) := by
  cases as with
  | nil => exact covers_some (.ok () h)
  | cons a as =>
    rw [performAll_succ, performAll_succ]
    exact (ih.perform h a).sequel fun _ s₁ t₁ h₁ => ih.performAll h₁ as

end Fuel

/-- **Paired sessions do the same** with as much fuel or more.  The induction is on the fuel, which
all that is done in a session shares. -/
theorem simulates (hM : Steady M) (hT : Lasting T) {n n' : Nat} (hn : n ≤ n') :
    Simulates M T n n' := by
  induction n generalizing n' with
  | zero =>
    refine ⟨fun _ => ?_, fun _ _ _ => ?_, fun _ => ?_, fun _ _ => ?_, fun _ _ => ?_, fun _ _ => ?_⟩
    · rw [step]; exact covers_none
    · rw [steps]; exact covers_none
    · rw [run]; exact covers_none
    · rw [runCooperatively]; exact covers_none
    · rw [perform]; exact covers_none
    · rw [performAll]; exact covers_none
  | succ n ih =>
    obtain ⟨k, rfl⟩ : ∃ k, n' = k + 1 := ⟨n' - 1, by omega⟩
    have hk := ih (Nat.le_of_succ_le_succ hn)
    exact ⟨covers_step hM hk, covers_steps hM hk, covers_run hM hk,
      fun h => covers_runCooperatively hM hk h hT, fun h => covers_perform hM hk h hT,
      covers_performAll hk⟩

/-! ### More fuel -/

theorem lasting_true : Lasting fun _ => True := ⟨fun _ => trivial, fun _ => trivial⟩

theorem Paired.eq (h : Paired Eq T s t) : t = s := by
  obtain ⟨hm, hh, ht, -⟩ := h
  cases s
  cases t
  simp only at hm hh ht
  rw [hm, hh, ht]

theorem Covers.eq {o o' : Option (Result α)} {r : Result α} (h : Covers (Paired Eq T) o o')
    (hr : o = some r) : o' = some r := by
  obtain ⟨r', hr', hres⟩ := h r hr
  cases hres with
  | ok a hst => rw [hr', hst.eq]
  | error e hst => rw [hr', hst.eq]

theorem Paired.refl (hM : M s.machine s.machine) (hT : T s.token) : Paired M T s s :=
  ⟨hM, rfl, rfl, hT⟩

theorem step_mono {n n' : Nat} {r : Result Unit} (h : step n s = some r) (hn : n ≤ n') :
    step n' s = some r :=
  ((simulates steady_eq lasting_true hn).step (.refl rfl trivial)).eq h

theorem run_mono {n n' : Nat} {r : Result Unit} (h : run n s = some r) (hn : n ≤ n') :
    run n' s = some r :=
  ((simulates steady_eq lasting_true hn).run (.refl rfl trivial)).eq h

theorem runCooperatively_mono {paced : Bool} {n n' : Nat} {r : Result Bool}
    (h : runCooperatively paced n s = some r) (hn : n ≤ n') :
    runCooperatively paced n' s = some r :=
  ((simulates steady_eq lasting_true hn).runCooperatively (.refl rfl trivial) paced).eq h

/-- A token that was cancelled stays so during a run. -/
theorem due_of_run {n : Nat} {r : Result Unit} (h : run n s = some r)
    (hs : s.token.due.isSome = true) : (endState r).token.due.isSome = true := by
  have hlasting : Lasting fun t => t.due.isSome = true :=
    ⟨fun ht => by simpa [Token.tick] using ht, fun _ => rfl⟩
  obtain ⟨r', -, hr⟩ := (simulates steady_eq hlasting (Nat.le_refl n)).run (.refl rfl hs) r h
  exact hr.endState.known

end Session

end Stackline
