import Stackline.Proofs.Session.Simulation
import Stackline.Proofs.Session.Stopped

/-!
# Ways of driving a machine

A machine can be driven by single steps, by a run, or by a cooperative run, which looks at a token
before each step and may pause after it.  They agree (`driving_agrees`): steps before a run are part
of it, a cooperative run that is never cancelled ends as a run does, and one that is cancelled stops
the machine where the steps so far have led.
-/

namespace Stackline.Session

variable {M : Machine → Machine → Prop} {T : Token → Prop} {paced : Bool} {s s₁ s₂ t : Session}
  {r r' : Result Unit} {c c' : Result Bool} {fuel k : Nat}

/-- A run ends with a result. -/
def Ends (s : Session) (r : Result Unit) : Prop := ∃ fuel, run fuel s = some r

/-- A cooperative run ends with a result. -/
def EndsCooperatively (paced : Bool) (s : Session) (c : Result Bool) : Prop :=
  ∃ fuel, runCooperatively paced fuel s = some c

/-- `k` steps without an error lead from one session to another, where before each of them the host
does something. -/
inductive Stepped (before : Session → Session → Prop) : Nat → Session → Session → Prop
  | refl (s : Session) : Stepped before 0 s s
  | head {k fuel : Nat} {s s₁ t u : Session} (hb : before s s₁)
      (hs : step fuel s₁ = some (.ok () t)) (h : Stepped before k t u) : Stepped before (k + 1) s u

/-- The host looks whether the token is cancelled, and it is not. -/
def Unseen (s t : Session) : Prop :=
  s.token.isCancelled = false ∧ t = { s with token := s.token.tick }

/-- Sessions that are the same but for flushes. -/
structure SameButFlushes (s t : Session) : Prop where
  machine : t.machine.unflushed = s.machine.unflushed
  written : t.machine.written = s.machine.written
  handlers : t.handlers = s.handlers
  token : t.token = s.token

/-- A run and a cooperative run end alike, the latter with the final state of the machine for its
value. -/
inductive SameEnd (R : Session → Session → Prop) : Result Unit → Result Bool → Prop
  | ok {s t : Session} (h : R s t) : SameEnd R (.ok () s) (.ok t.machine.killed t)
  | error (e : Error) {s t : Session} (h : R s t) : SameEnd R (.error e s) (.error e t)

/-! ### Runs -/

theorem step_of_stopped (h : s.machine.isRunning = false) (hs : step fuel s = some (.ok () t)) :
    t = s := by
  have hfetch : s.machine.fetch? = none := by simp [Machine.fetch?, h]
  cases fuel with
  | zero => rw [step] at hs; cases hs
  | succ fuel =>
    simp only [step, hfetch] at hs
    cases hs
    rfl

/-- A step that does not fail is the first one of a run. -/
theorem ends_step (hs : step fuel s = some (.ok () t)) : Ends t r ↔ Ends s r := by
  cases hrun : s.machine.isRunning with
  | false => rw [step_of_stopped hrun hs]
  | true =>
    have hrun_eq : ∀ n, fuel ≤ n → run (n + 1) s = run n t := by
      intro n hn
      rw [run_succ, if_pos hrun, step_mono hs hn]
      rfl
    constructor
    · rintro ⟨n, hr⟩
      refine ⟨max fuel n + 1, ?_⟩
      rw [hrun_eq _ (Nat.le_max_left _ _)]
      exact run_mono hr (Nat.le_max_right _ _)
    · rintro ⟨n, hr⟩
      refine ⟨max fuel n, ?_⟩
      rw [← hrun_eq _ (Nat.le_max_left _ _)]
      exact run_mono hr (by omega)

theorem ends_stepped (h : Stepped Eq k s t) (r : Result Unit) : Ends t r ↔ Ends s r := by
  induction h with
  | refl s => rfl
  | head hb hs _ ih =>
    subst hb
    exact ih.trans (ends_step hs)

/-! ### Cooperative runs -/

theorem EndsCooperatively.unique (h : EndsCooperatively paced s c)
    (h' : EndsCooperatively paced s c') : c' = c := by
  obtain ⟨n, hc⟩ := h
  obtain ⟨n', hc'⟩ := h'
  have h₁ := runCooperatively_mono hc (Nat.le_max_left n n')
  have h₂ := runCooperatively_mono hc' (Nat.le_max_right n n')
  exact Option.some.inj (h₂.symm.trans h₁)

theorem endsCooperatively_iff (h : EndsCooperatively paced s c) (c' : Result Bool) :
    EndsCooperatively paced s c' ↔ c' = c :=
  ⟨h.unique, fun he => he ▸ h⟩

theorem endsCooperatively_step (hrun : s.look.machine.isRunning = true)
    (hs : step fuel s.look = some (.ok () s₁)) (hp : s₁.lift (Machine.pause paced) = .ok () s₂)
    (h : EndsCooperatively paced s₂ c) : EndsCooperatively paced s c := by
  obtain ⟨n, hc⟩ := h
  refine ⟨max fuel n + 1, ?_⟩
  rw [runCooperatively_succ, if_pos hrun, step_mono hs (Nat.le_max_left _ _)]
  simp only [sequel, hp]
  exact runCooperatively_mono hc (Nat.le_max_right _ _)

theorem look_of_not_cancelled (h : s.token.isCancelled = false) :
    s.look = { s with token := s.token.tick } := by
  unfold look Machine.heed
  rw [h]
  rfl

/-- A token that nobody cancels looks the same each time. -/
theorem look_of_due_none (h : s.token.due = none) : s.look = s := by
  have hc : s.token.isCancelled = false := by simp [Token.isCancelled, h]
  have ht : s.token.tick = s.token := by
    cases hd : s.token
    rw [hd] at h
    simp only at h
    rw [h]
    rfl
  rw [look_of_not_cancelled hc, ht]

/-! ### Never cancelled -/

theorem sameEnd_stopped (hM : Steady M) (h : Paired M T s t) :
    SameEnd (Paired M T) (s.lift Machine.endRun) (t.lift Machine.endCooperativeRun) := by
  have hend := hM.endRun h.machine
  generalize hr : Machine.endRun s.machine = r at hend
  generalize hr' : Machine.endRun t.machine = r' at hend
  cases hend with
  | ok a hm =>
    rw [lift_of_ok hr, lift_of_ok (Machine.endCooperativeRun_of_ok hr')]
    exact .ok (h.with_machine hm)
  | error e hm =>
    rw [lift_of_error hr, lift_of_error (Machine.endCooperativeRun_of_error hr')]
    exact .error e (h.with_machine hm)

/-- A cooperative run does as a run does, if pauses keep the machines related and no request to
cancel comes up to the end. -/
theorem runCooperatively_of_run (hM : Steady M)
    (hpause : ∀ {m m'}, M m m' → ∃ m₁, Machine.pause paced m' = .ok () m₁ ∧ M m m₁)
    (h : Paired M (fun _ => True) s t) (hr : run fuel s = some r)
    (hdue : (endState r).token.due = none) :
    ∃ c, runCooperatively paced fuel t = some c ∧ SameEnd (Paired M fun _ => True) r c := by
  -- both runs use up their fuel alike, a unit for each step
  induction fuel generalizing s t with
  | zero => rw [run] at hr; cases hr
  | succ fuel ih =>
    -- a request that had come by now would still be there at the end
    have hs : s.token.due = none := by
      rw [← Option.not_isSome_iff_eq_none]
      intro hsome
      have hlast := due_of_run hr hsome
      rw [hdue] at hlast
      cases hlast
    have hlook : t.look = t := look_of_due_none (by rw [h.token, hs])
    rw [run_succ] at hr
    rw [runCooperatively_succ, hlook, hM.isRunning h.machine]
    split at hr
    · next hrun =>
      rw [if_pos hrun]
      have hstep := (simulates hM lasting_true (Nat.le_refl fuel)).step h
      cases hs₁ : step fuel s with
      | none => rw [hs₁] at hr; cases hr
      | some r₁ =>
        rw [hs₁] at hr
        obtain ⟨r₁', hs₁', hres⟩ := hstep r₁ hs₁
        rw [hs₁']
        cases hres with
        | ok _ h₁ =>
          obtain ⟨m₁, hm₁, hrel⟩ := hpause h₁.machine
          simp only [sequel, lift_of_ok hm₁]
          exact ih ⟨hrel, h₁.handlers, h₁.token, trivial⟩ hr
        | error e h₁ =>
          cases hr
          exact ⟨_, rfl, .error e h₁⟩
    · next hrun =>
      rw [if_neg hrun]
      cases hr
      exact ⟨_, rfl, sameEnd_stopped hM h⟩

/-! ### Cancelled -/

theorem Stepped.isRunning (h : Stepped Unseen k s t) (ht : t.machine.isRunning = true) :
    s.machine.isRunning = true := by
  induction h with
  | refl s => exact ht
  | @head k fuel s s₁ t u hb hs _ ih =>
    obtain ⟨-, rfl⟩ := hb
    cases hrun : s.machine.isRunning with
    | true => rfl
    | false =>
      have hsame := step_of_stopped (s := { s with token := s.token.tick }) hrun hs
      have hrun' := ih ht
      rw [hsame] at hrun'
      exact hrun.symm.trans hrun'

/-- The session in which a run has been cancelled. -/
def cancelled (t : Session) : Session :=
  { t with machine := ((t.machine.note (.cancelled t.machine.pc)).kill).note (.finished true) }

theorem tick_of_cancelled {k : Token} (h : k.isCancelled = true) : k.tick = k := by
  obtain ⟨due⟩ := k
  have hdue : due = some 0 := by simpa [Token.isCancelled] using h
  rw [hdue]
  rfl

/-- A request that is seen stops the machine at once. -/
theorem endsCooperatively_cancelled (paced : Bool) (hc : t.token.isCancelled = true)
    (hrun : t.machine.isRunning = true) (h : Paired Machine.Agree (fun _ => True) t s) :
    ∃ u, EndsCooperatively paced s (.ok true u) ∧
      Paired Machine.Agree (fun _ => True) t.cancelled u := by
  have hheed : t.look.machine = (t.machine.note (.cancelled t.machine.pc)).kill := by
    have hk : t.machine.killed = false := (Machine.isRunning_iff.mp hrun).1
    unfold look Machine.heed
    rw [hc, hk]
    rfl
  have hlook := h.look steady_agree lasting_true
  have hkilled : s.look.machine.killed = true := by
    have hsame : s.look.machine.killed = t.look.machine.killed :=
      hlook.machine.view fun _ _ _ => rfl
    rw [hsame, hheed]
    rfl
  -- the run is over, and only its end is left to be noted
  obtain ⟨m₁, hend, hagree⟩ := Machine.endRun_agree hlook.machine.right
  have hm : t.cancelled.machine.Agree m₁ := by
    have hnote := hlook.machine.map (Machine.note · (.finished true)) fun _ _ _ => rfl
    rw [hkilled] at hagree
    rw [hheed] at hnote
    exact hnote.trans hagree
  have hk₁ : m₁.killed = true := hm.view fun _ _ _ => rfl
  have hstop := Machine.isRunning_of_killed hkilled
  refine ⟨{ s.look with machine := m₁ }, ⟨1, ?_⟩, hm, h.handlers, ?_, trivial⟩
  · rw [runCooperatively_succ, hstop, lift_of_ok (Machine.endCooperativeRun_of_ok hend), hk₁]
    rfl
  · show s.token.tick = t.token
    rw [h.token, tick_of_cancelled hc]

theorem endsCooperatively_of_stepped (paced : Bool) (h : Stepped Unseen k s t)
    (hc : t.token.isCancelled = true) (hrun : t.machine.isRunning = true) {s' : Session}
    (hp : Paired Machine.Agree (fun _ => True) s s') :
    ∃ u, EndsCooperatively paced s' (.ok true u) ∧
      Paired Machine.Agree (fun _ => True) t.cancelled u := by
  -- the pauses of the cooperative run lead it away from the steps, but only by flushes
  induction h generalizing s' with
  | refl s => exact endsCooperatively_cancelled paced hc hrun hp
  | @head k fuel s s₁ t u hb hs hsteps ih =>
    have hrun₁ := (Stepped.head hb hs hsteps).isRunning hrun
    obtain ⟨hunseen, rfl⟩ := hb
    have hlook := look_of_not_cancelled hunseen
    have hpair := hp.look steady_agree lasting_true
    have hrun' : s'.look.machine.isRunning = true := by
      rw [steady_agree.isRunning hpair.machine, hlook]
      exact hrun₁
    rw [← hlook] at hs
    obtain ⟨r', hs', hres⟩ :=
      (simulates steady_agree lasting_true (Nat.le_refl fuel)).step hpair _ hs
    cases hres with
    | @ok _ _ t' h₁ =>
      obtain ⟨m₂, hm₂, hagree⟩ := Machine.pause_agree paced h₁.machine.right
      have hnext : Paired Machine.Agree (fun _ => True) t { t' with machine := m₂ } :=
        ⟨h₁.machine.trans hagree, h₁.handlers, h₁.token, trivial⟩
      obtain ⟨v, hv, hpv⟩ := ih hc hrun hnext
      exact ⟨v, endsCooperatively_step hrun' hs' (lift_of_ok hm₂) hv, hpv⟩

/-! ### All of them -/

theorem Paired.sameButFlushes (h : Paired Machine.Agree T s t) : SameButFlushes s t :=
  ⟨h.machine.same, h.machine.written, h.handlers, h.token⟩

theorem SameEnd.mono {R R' : Session → Session → Prop} (hR : ∀ {s t}, R s t → R' s t)
    (h : SameEnd R r c) : SameEnd R' r c := by
  cases h with
  | ok h => exact .ok (hR h)
  | error e h => exact .error e (hR h)

/-- **All ways of driving a machine agree.**  Let no flush of the sink fail.  If a run ends and the
token has not been cancelled by then, a cooperative run ends too, whether or not it pauses: in the
same way, with the same error if any, in the same session but for flushes, or altogether the same if
it does not pause; its value says whether the machine has been stopped.  Steps that do not fail can
be made before a run without a difference.  And if `k` steps have been made, before each of which
the token was looked at, and it is seen to be cancelled next while the machine is running, then the
cooperative run ends by stopping the machine where those steps have led. -/
theorem driving_agrees (s : Session) (hs : s.machine.sink.Flushes) :
    (∀ paced r, Ends s r → (endState r).token.due = none →
      ∃ c, (∀ c', EndsCooperatively paced s c' ↔ c' = c) ∧ SameEnd SameButFlushes r c ∧
        (paced = false → SameEnd Eq r c)) ∧
    (∀ k t, Stepped Eq k s t → ∀ r, Ends t r ↔ Ends s r) ∧
    (∀ paced k t, Stepped Unseen k s t → t.token.isCancelled = true →
      t.machine.isRunning = true →
      ∃ u, (∀ c', EndsCooperatively paced s c' ↔ c' = .ok true u) ∧
        SameButFlushes t.cancelled u) := by
  refine ⟨fun paced r hr hdue => ?_, fun k t => ends_stepped, fun paced k t h hc hrun => ?_⟩
  · obtain ⟨fuel, hr⟩ := hr
    obtain ⟨c, hc, hsame⟩ := runCooperatively_of_run steady_agree
      (fun h => by
        obtain ⟨m₁, hm₁, hagree⟩ := Machine.pause_agree paced h.right
        exact ⟨m₁, hm₁, h.trans hagree⟩)
      (.refl (.refl hs) trivial) hr hdue
    refine ⟨c, endsCooperatively_iff ⟨fuel, hc⟩, hsame.mono Paired.sameButFlushes, ?_⟩
    rintro rfl
    have hplain : ∃ c', runCooperatively false fuel s = some c' ∧
        SameEnd (Paired Eq fun _ => True) r c' :=
      runCooperatively_of_run steady_eq (fun h => ⟨_, rfl, h⟩) (.refl rfl trivial) hr hdue
    obtain ⟨c', hc', hsame'⟩ := hplain
    obtain rfl := Option.some.inj (hc.symm.trans hc')
    exact hsame'.mono fun h => h.eq.symm
  · obtain ⟨u, hu, hpair⟩ := endsCooperatively_of_stepped paced h hc hrun
      (.refl (.refl hs) trivial)
    exact ⟨u, endsCooperatively_iff hu, hpair.sameButFlushes⟩

/-- A program that prints a number, where the host prints in its own way and is asked to cancel
after some looks. -/
def printing (due : Option Nat) : Session where
  machine := .start (.ofInstructions [.ofMnemonic 10 "PUSH" ["7"],
    .ofMnemonic 20 "PRINT" []]) (.ofText "") (.writer {})
  handlers := [(.print, [.call .emit])]
  token := ⟨due⟩

/-- Without a request the paced run prints as the run does; with one after the first step it does
not come to it. -/
theorem driving_agrees_printing :
    (∃ t, EndsCooperatively true (printing none) (.ok false t) ∧ t.machine.written = "<7>\n") ∧
    ∃ u, EndsCooperatively true (printing (some 1)) (.ok true u) ∧ u.machine.written = "" ∧
      u.machine.operands.size = 1 ∧ u.machine.killed = true := by
  constructor
  · obtain ⟨hnever, -, -⟩ := driving_agrees (printing none) (Nat.le_refl 0)
    have hview : (run 6 (printing none)).map (fun r => ((match r with
        | .ok _ _ => true
        | .error _ _ => false), (endState r).token.due, (endState r).machine.killed,
          (endState r).machine.written)) = some (true, none, false, "<7>\n") := by decide +kernel
    obtain ⟨r, hr, hv⟩ := Option.map_eq_some_iff.mp hview
    simp only [Prod.mk.injEq] at hv
    obtain ⟨hok, hdue, hk, hw⟩ := hv
    obtain ⟨c, hc, hsame, -⟩ := hnever true r ⟨6, hr⟩ hdue
    cases hsame with
    | @ok s t h =>
      have hk' : t.machine.killed = false := (congrArg Machine.killed h.machine).trans hk
      rw [hk'] at hc
      exact ⟨t, (hc _).mpr rfl, h.written.trans hw⟩
    | error e h => cases hok
  · obtain ⟨-, -, hseen⟩ := driving_agrees (printing (some 1)) (Nat.le_refl 0)
    have hview : (step 1 (printing (some 0))).map (fun r => ((match r with
        | .ok _ _ => true
        | .error _ _ => false), (endState r).token.isCancelled, (endState r).machine.isRunning,
          (endState r).machine.written, (endState r).machine.operands.size)) =
            some (true, true, true, "", 1) := by decide +kernel
    obtain ⟨r, hr, hv⟩ := Option.map_eq_some_iff.mp hview
    simp only [Prod.mk.injEq] at hv
    obtain ⟨hok, hc, hrun, hw, hsize⟩ := hv
    cases r with
    | ok _ t =>
      have hsteps : Stepped Unseen 1 (printing (some 1)) t := .head ⟨rfl, rfl⟩ hr (.refl t)
      obtain ⟨u, hu, h⟩ := hseen true 1 t hsteps hc hrun
      exact ⟨u, (hu _).mpr rfl, h.written.trans hw,
        (congrArg (fun m => m.operands.size) h.machine).trans hsize,
        congrArg Machine.killed h.machine⟩
    | error e t => cases hok

end Stackline.Session
