import Stackline.Proofs.Literal.Denotation
import Stackline.Proofs.Machine.Locality
import Stackline.Proofs.Machine.Push
import Stackline.Proofs.Machine.Subroutine
import Stackline.Proofs.Value.Arithmetic

/-!
# Exact integers

Beside the machine stands an ideal one, whose operands and registers are integers of any size: what
it does is a function of the instruction and of the two stacks, and is not defined for lack of
operands and for a remainder by zero (`Instruction.ideal`).  A step of straight-line code that goes
well and leaves only integers behind is a step of the ideal machine on the numbers that they stand
for (`represents_step`), and so is a run (`integers_exact`).  A result that does not fit 64 bits is
a double, and the two machines part there.
-/

namespace Stackline

/-! ### Integers of any size -/

/-- The value is an integer, and stands for this number. -/
def Value.Is (v : Value) (n : Int) : Prop := ∃ k : Int64, v = .integer k ∧ k.toInt = n

/-- Whether the value is an integer. -/
def Value.isInteger : Value → Bool
  | .integer _ => true
  | _ => false

theorem Value.isInteger_iff {v : Value} : v.isInteger = true ↔ ∃ n, v = .integer n := by
  constructor
  · intro h
    cases v with
    | integer n => exact ⟨n, rfl⟩
    | _ => cases h
  · rintro ⟨n, rfl⟩
    rfl

namespace Literal

open Text Number

/-- The number that digits write, of any size, possibly after a minus. -/
def ideal? (s : String) : Option Int :=
  match trim s.toList with
  | '-' :: ds => if !ds.isEmpty && ds.all Char.isDigit then some (-natOf ds) else none
  | ds => if !ds.isEmpty && ds.all Char.isDigit then some (natOf ds) else none

theorem ideal?_of_writes {s : String} {k : Int} (h : Writes (trim s.toList) k) :
    ideal? s = some k := by
  unfold ideal?
  generalize trim s.toList = cs at h
  cases h with
  | positive hds =>
    split
    · exact absurd (hds.digits '-' List.mem_cons_self) (by decide)
    · exact if_pos (by simpa using ⟨hds.ne_nil, hds.digits⟩)
  | negative hds _ => exact if_pos (by simpa using ⟨hds.ne_nil, hds.digits⟩)

/-- A literal of digits that is read as an integer is read as the number it writes. -/
theorem ideal?_of_read {s : String} {n : Int64} (hs : (ideal? s).isSome = true)
    (h : read s = .ok (.integer n)) : ideal? s = some n.toInt := by
  rcases read_eq_ok_iff.mp h with hreads | ⟨-, hnull⟩
  · rcases reads_integer_iff.mp hreads with ⟨hcs, -⟩ | ⟨hcs, -⟩ | hwrites
    · rw [ideal?, hcs] at hs
      cases hs
    · rw [ideal?, hcs] at hs
      cases hs
    · exact ideal?_of_writes hwrites
  · cases hnull

theorem mapM_ideal? {ps : List String} {vs : List Value} (hread : ps.map read = vs.map .ok)
    (hps : ∀ p ∈ ps, (ideal? p).isSome = true) (hvs : ∀ v ∈ vs, v.isInteger = true) :
    ∃ ns, ps.mapM ideal? = some ns ∧ List.Forall₂ Value.Is vs ns := by
  induction ps generalizing vs with
  | nil =>
    obtain rfl : vs = [] := by simpa using hread.symm
    exact ⟨[], rfl, .nil⟩
  | cons p ps ih =>
    cases vs with
    | nil => cases hread
    | cons v vs =>
      obtain ⟨hv, htail⟩ := List.cons.inj hread
      obtain ⟨n, rfl⟩ := Value.isInteger_iff.mp (hvs v List.mem_cons_self)
      obtain ⟨ns, hns, hrel⟩ := ih htail (fun q hq => hps q (List.mem_cons_of_mem _ hq))
        fun w hw => hvs w (List.mem_cons_of_mem _ hw)
      have hp := ideal?_of_read (hps p List.mem_cons_self) hv
      refine ⟨n.toInt :: ns, ?_, .cons ⟨n, rfl, rfl⟩ hrel⟩
      rw [List.mapM_cons, hp, hns]
      rfl

end Literal

/-! ### The ideal machine -/

/-- The operands and the registers of the ideal machine, the newest first. -/
abbrev Numbers : Type := List Int × List Int

/-- Replace the newest number by a result. -/
def UnaryOp.onNumbers (op : UnaryOp) : Numbers → Option Numbers
  | (a :: l, r) => (op.ideal? a).map fun n => (n :: l, r)
  | _ => none

/-- Replace the two newest numbers by a result. -/
def BinaryOp.onNumbers (op : BinaryOp) : Numbers → Option Numbers
  | (b :: a :: l, r) => (op.ideal? a b).map fun n => (n :: l, r)
  | _ => none

/-- What an operation without parameters does on the ideal machine. -/
def Opcode.ideal : Opcode → Numbers → Option Numbers
  | .inc, q => UnaryOp.onNumbers .increment q
  | .dec, q => UnaryOp.onNumbers .decrement q
  | .add, q => BinaryOp.onNumbers .add q
  | .sub, q => BinaryOp.onNumbers .subtract q
  | .mul, q => BinaryOp.onNumbers .multiply q
  | .mod, q => BinaryOp.onNumbers .modulus q
  | .eq, q => BinaryOp.onNumbers .equal q
  | .less, q => BinaryOp.onNumbers .less q
  | .more, q => BinaryOp.onNumbers .more q
  | .lesseq, q => BinaryOp.onNumbers .lessEqual q
  | .moreeq, q => BinaryOp.onNumbers .moreEqual q
  | .rot, (c :: b :: a :: l, r) => some (a :: c :: b :: l, r)
  | .dup, (a :: l, r) => some (a :: a :: l, r)
  | .pop, (_ :: l, r) => some (l, r)
  | .swap, (b :: a :: l, r) => some (a :: b :: l, r)
  | .copyOver, (b :: a :: l, r) => some (a :: b :: a :: l, r)
  | .yeet, (a :: l, r) => some (l, a :: r)
  | .yoink, (l, a :: r) => some (a :: l, r)
  | .size, (l, r) => some (l.length :: l, r)
  | .rsize, (l, r) => some (r.length :: l, r)
  | _, _ => none

/-- What an instruction does on the ideal machine. -/
def Instruction.ideal (i : Instruction) (q : Numbers) : Option Numbers :=
  match i.opcode with
  | some .push => (i.params.mapM Literal.ideal?).map fun ns => (ns.reverse ++ q.1, q.2)
  | some o => o.ideal q
  | none => none

/-- The operations on integers that leave the pointer alone. -/
def straightOps : List Opcode :=
  [.push, .inc, .dec, .add, .sub, .mul, .mod, .eq, .less, .more, .lesseq, .moreeq, .rot, .dup, .pop,
    .swap, .copyOver, .yeet, .yoink, .size, .rsize]

/-- An instruction of straight-line code on integers: a `PUSH` has literals of integers only. -/
def Instruction.Straight (i : Instruction) : Prop :=
  (∃ o ∈ straightOps, i.opcode = some o) ∧
    (i.opcode = some .push → ∀ p ∈ i.params, (Literal.ideal? p).isSome = true)

instance (i : Instruction) : Decidable i.Straight := inferInstanceAs (Decidable (_ ∧ _))

namespace Machine

variable {m m₁ : Machine} {o : Opcode} {i : Instruction} {q : Numbers}

/-- Both stacks of values hold integers only. -/
def Integral (m : Machine) : Prop :=
  ∀ v ∈ m.operands.entries ++ m.registers.entries, v.isInteger = true

instance (m : Machine) : Decidable (Integral m) :=
  inferInstanceAs (Decidable (∀ v ∈ _, Value.isInteger v = true))

/-- The machine holds the numbers of the ideal machine. -/
structure Represents (m : Machine) (q : Numbers) : Prop where
  operands : List.Forall₂ Value.Is m.operands.entries q.1
  registers : List.Forall₂ Value.Is m.registers.entries q.2

/-! ### One step -/

/-- A step that goes well is one whose operation succeeds. -/
theorem execute_of_done (hi : m.fetch? = some i) (ho : i.opcode = some o)
    (hd : outcome m = .done) :
    ∃ m₁, execute o (m.begin i) = .ok () m₁ ∧ SameValues m₁ (endState (step m)) := by
  have hsame := sameValues_step hi ho
  rw [outcome_eq hi ho] at hd
  cases hr : execute o (m.begin i) with
  | ok _ m₁ =>
    rw [hr] at hsame
    exact ⟨m₁, rfl, hsame⟩
  | error e m₁ =>
    rw [hr] at hd
    simp only [Outcome.of] at hd
    split at hd <;> cases hd

/-- Values that stand for numbers still do when both are moved. -/
theorem ideal_of_shuffled {p p' : List Value × List Value}
    (h : List.Forall₂ Value.Is p.1 q.1) (h' : List.Forall₂ Value.Is p.2 q.2)
    (hp : shuffled p o = some p') :
    ∃ q', o.ideal q = some q' ∧ List.Forall₂ Value.Is p'.1 q'.1 ∧
      List.Forall₂ Value.Is p'.2 q'.2 := by
  obtain ⟨s, r⟩ := q
  unfold shuffled at hp
  -- the cases are the rows of `shuffled`, and the numbers are as many as the values
  split at hp
  · cases hp
    rcases h with _ | ⟨hc, _ | ⟨hb, _ | ⟨ha, hl⟩⟩⟩
    exact ⟨_, rfl, .cons ha (.cons hc (.cons hb hl)), h'⟩
  · cases hp
    rcases h with _ | ⟨ha, hl⟩
    exact ⟨_, rfl, .cons ha (.cons ha hl), h'⟩
  · cases hp
    rcases h with _ | ⟨_, hl⟩
    exact ⟨_, rfl, hl, h'⟩
  · cases hp
    rcases h with _ | ⟨hb, _ | ⟨ha, hl⟩⟩
    exact ⟨_, rfl, .cons ha (.cons hb hl), h'⟩
  · cases hp
    rcases h with _ | ⟨hb, _ | ⟨ha, hl⟩⟩
    exact ⟨_, rfl, .cons ha (.cons hb (.cons ha hl)), h'⟩
  · cases hp
    rcases h with _ | ⟨ha, hl⟩
    exact ⟨_, rfl, hl, .cons ha h'⟩
  · cases hp
    rcases h' with _ | ⟨ha, hr⟩
    exact ⟨_, rfl, .cons ha h, hr⟩
  · cases hp

theorem represents_shuffle (ho : o ∈ shuffles) (hn : Next o m) (hd : outcome m = .done)
    (hq : Represents m q) : ∃ q', o.ideal q = some q' ∧ Represents (endState (step m)) q' := by
  obtain ⟨q', hq', hop, hreg⟩ :=
    ideal_of_shuffled hq.operands hq.registers (shuffled_of_done ho hn hd)
  exact ⟨q', hq', hop, hreg⟩

theorem result_of_moves {r : Except Mismatch Value} {b s t s' t' : List Value}
    (h : Effect.Moves b s t (.replaced (r.map fun w => [w])) s' t') :
    ∃ w, r = .ok w ∧ s' = w :: b ∧ t' = t := by
  cases r with
  | error e => cases h
  | ok w =>
    cases h
    exact ⟨w, rfl, rfl, rfl⟩

theorem represents_of_result {b : List Value} {l r : List Int} {n : Int64}
    (hs : m₁.operands.entries = .integer n :: b) (hr : m₁.registers.entries = m.registers.entries)
    (hl : List.Forall₂ Value.Is b l) (hreg : List.Forall₂ Value.Is m.registers.entries r) :
    Represents m₁ (n.toInt :: l, r) where
  operands := by
    rw [hs]
    exact .cons ⟨n, rfl, rfl⟩ hl
  registers := by
    rw [hr]
    exact hreg

/-- What an operation on one value gives is exact, if it is an integer. -/
theorem represents_unary {op : UnaryOp} (hop : op = .increment ∨ op = .decrement)
    (hn : Next op.opcode m) (hd : outcome m = .done) (hint : Integral (endState (step m)))
    (hq : Represents m q) : ∃ q', op.onNumbers q = some q' ∧ Represents (endState (step m)) q' := by
  have ha : arity? op.opcode = some 1 := by cases op <;> rfl
  obtain ⟨x, b, f, hlen, hx, -, -⟩ := exists_effect ha (not_lacks_of_done ha hn hd)
  obtain ⟨v, rfl⟩ := List.length_eq_one_iff.mp hlen
  obtain ⟨w, hw, hs, hr⟩ := result_of_moves (moves_of_done (.unary op v) hx nofun hn hd)
  obtain ⟨n, rfl⟩ := Value.isInteger_iff.mp (hint w (by simp [hs]))
  obtain ⟨s, r⟩ := q
  obtain ⟨_, l, ⟨k, rfl, rfl⟩, hl, rfl⟩ := List.forall₂_cons_left_iff.mp (hx ▸ hq.operands)
  refine ⟨(n.toInt :: l, r), ?_, represents_of_result hs hr hl hq.registers⟩
  simp only [UnaryOp.onNumbers, UnaryOp.ideal_of_apply hop hw, Option.map_some]

/-- What an operation on two values gives is exact, if it is an integer. -/
theorem represents_binary {op : BinaryOp} (hn : Next op.opcode m) (hd : outcome m = .done)
    (hint : Integral (endState (step m))) (hq : Represents m q) :
    ∃ q', op.onNumbers q = some q' ∧ Represents (endState (step m)) q' := by
  have ha : arity? op.opcode = some 2 := by cases op <;> rfl
  obtain ⟨x, b, f, hlen, hx, -, -⟩ := exists_effect ha (not_lacks_of_done ha hn hd)
  obtain ⟨v₁, v₂, rfl⟩ := List.length_eq_two.mp hlen
  obtain ⟨w, hw, hs, hr⟩ := result_of_moves (moves_of_done (.binary op v₁ v₂) hx nofun hn hd)
  obtain ⟨n, rfl⟩ := Value.isInteger_iff.mp (hint w (by simp [hs]))
  obtain ⟨s, r⟩ := q
  obtain ⟨_, _, ⟨k₂, rfl, rfl⟩, hrest, rfl⟩ := List.forall₂_cons_left_iff.mp (hx ▸ hq.operands)
  obtain ⟨_, l, ⟨k₁, rfl, rfl⟩, hl, rfl⟩ := List.forall₂_cons_left_iff.mp hrest
  refine ⟨(n.toInt :: l, r), ?_, represents_of_result hs hr hl hq.registers⟩
  simp only [BinaryOp.onNumbers, BinaryOp.ideal_of_apply hw, Option.map_some]

/-- A count of values fits, since no stack is that deep. -/
theorem represents_count {n : Nat} (hi : m.fetch? = some i) (ho : i.opcode = some o)
    (hexec : execute o (m.begin i) = push (.integer (.ofNat n)) (m.begin i))
    (hn : n ≤ Stack.capacity) (hd : outcome m = .done) (hq : Represents m q) :
    Represents (endState (step m)) ((n : Int) :: q.1, q.2) := by
  have hfits : (Int64.ofNat n).toInt = n :=
    Int64.toInt_ofNat_of_lt (Nat.lt_of_le_of_lt hn (by decide))
  obtain ⟨m₁, hr, hsame⟩ := execute_of_done hi ho hd
  rw [hexec] at hr
  rcases push_cases (.integer (.ofNat n)) (m.begin i) with hpush | hpush
  · rw [hpush] at hr
    cases hr
    constructor
    · rw [hsame.operands]
      exact .cons ⟨_, rfl, hfits⟩ hq.operands
    · rw [hsame.registers]
      exact hq.registers
  · rw [hpush] at hr
    cases hr

/-- A `PUSH` that goes well pushes what its parameters are read as. -/
theorem entries_of_push_done (hi : m.fetch? = some i) (ho : i.opcode = some .push)
    (hd : outcome m = .done) :
    ∃ vs : List Value, i.params.map Literal.read = vs.map .ok ∧
      (endState (step m)).operands.entries = vs.reverse ++ m.operands.entries ∧
      (endState (step m)).registers = m.registers := by
  obtain ⟨m₁, hr, hsame⟩ := execute_of_done hi ho hd
  have hpush : execute .push (m.begin i) = (literals i.params >>= pushAll) (m.begin i) :=
    pushParams_of_some rfl
  rw [hpush] at hr
  have hread : ∀ p ∈ i.params, ∃ v, Literal.read p = .ok v := by
    intro p hp
    cases hv : Literal.read p with
    | ok v => exact ⟨v, rfl⟩
    | error e =>
      obtain ⟨e', he', -⟩ := literals_error hp hv (m.begin i)
      rw [bind_of_error he'] at hr
      cases hr
  obtain ⟨vs, hvs, hmap⟩ := literals_ok hread (m.begin i)
  rw [bind_of_ok hvs] at hr
  by_cases hroom : (m.begin i).operands.size + vs.length ≤ Stack.capacity
  · rw [pushAll_of_le hroom] at hr
    cases hr
    exact ⟨vs, hmap, by rw [hsame.operands]; rfl, hsame.registers⟩
  · rw [pushAll_of_full (Nat.not_le.mp hroom)] at hr
    cases hr

theorem represents_push (hi : m.fetch? = some i) (ho : i.opcode = some .push)
    (hps : ∀ p ∈ i.params, (Literal.ideal? p).isSome = true) (hd : outcome m = .done)
    (hint : Integral (endState (step m))) (hq : Represents m q) :
    ∃ q', i.ideal q = some q' ∧ Represents (endState (step m)) q' := by
  obtain ⟨vs, hread, hop, hreg⟩ := entries_of_push_done hi ho hd
  have hvs : ∀ v ∈ vs, v.isInteger = true := fun v hv => hint v (by simp [hop, hv])
  obtain ⟨ns, hns, hrel⟩ := Literal.mapM_ideal? hread hps hvs
  refine ⟨(ns.reverse ++ q.1, q.2), ?_, ?_, ?_⟩
  · simp only [Instruction.ideal, ho, hns, Option.map_some]
  · rw [hop]
    exact List.rel_append (List.rel_reverse hrel) hq.operands
  · rw [hreg]
    exact hq.registers

/-- The operations without parameters, one by one. -/
theorem represents_operation (hb : m.Bounded) (hi : m.fetch? = some i) (ho : i.opcode = some o)
    (hmem : o ∈ straightOps) (hne : o ≠ .push) (hd : outcome m = .done)
    (hint : Integral (endState (step m))) (hq : Represents m q) :
    ∃ q', o.ideal q = some q' ∧ Represents (endState (step m)) q' := by
  have hn : Next o m := ⟨i, hi, ho⟩
  have hbinary (op : BinaryOp) (hn : Next op.opcode m) := represents_binary hn hd hint hq
  obtain ⟨l, r⟩ := q
  cases o with
  | push => exact absurd rfl hne
  | inc => exact represents_unary (.inl rfl) hn hd hint hq
  | dec => exact represents_unary (.inr rfl) hn hd hint hq
  | add => exact hbinary .add hn
  | sub => exact hbinary .subtract hn
  | mul => exact hbinary .multiply hn
  | mod => exact hbinary .modulus hn
  | eq => exact hbinary .equal hn
  | less => exact hbinary .less hn
  | more => exact hbinary .more hn
  | lesseq => exact hbinary .lessEqual hn
  | moreeq => exact hbinary .moreEqual hn
  | rot | dup | pop | swap | copyOver | yeet | yoink =>
    exact represents_shuffle (by decide) hn hd hq
  | size =>
    have hlen : m.operands.size = l.length := by
      rw [← m.operands.size_eq, hq.operands.length_eq]
    have hcount := represents_count hi ho rfl hb.operands hd hq
    exact ⟨_, rfl, hlen ▸ hcount⟩
  | rsize =>
    have hlen : m.registers.size = r.length := by
      rw [← m.registers.size_eq, hq.registers.length_eq]
    have hcount := represents_count hi ho rfl hb.registers hd hq
    exact ⟨_, rfl, hlen ▸ hcount⟩
  | _ => exact absurd hmem (by decide)

theorem ideal_of_opcode (ho : i.opcode = some o) (hne : o ≠ .push) : i.ideal q = o.ideal q := by
  unfold Instruction.ideal
  rw [ho]
  split
  · rename_i hpush
    exact absurd (Option.some.inj hpush) hne
  · rename_i hsome
    rw [Option.some.inj hsome]
  · rename_i hnone
    cases hnone

/-- **One step is exact.**  A step that goes well and leaves only integers behind is one of the
ideal machine. -/
theorem represents_step (hb : m.Bounded) (hi : m.fetch? = some i) (hs : i.Straight)
    (hd : outcome m = .done) (hint : Integral (endState (step m))) (hq : Represents m q) :
    ∃ q', i.ideal q = some q' ∧ Represents (endState (step m)) q' := by
  obtain ⟨⟨o, hmem, ho⟩, hps⟩ := hs
  by_cases hpush : o = .push
  · subst hpush
    exact represents_push hi ho (hps ho) hd hint hq
  · rw [ideal_of_opcode ho hpush]
    exact represents_operation hb hi ho hmem hpush hd hint hq

/-! ### Runs -/

/-- Straight-line code is executed line by line. -/
theorem pc_of_straight (hi : m.fetch? = some i) (hs : i.Straight) (hd : outcome m = .done) :
    (endState (step m)).pc = m.pc + 1 ∧ (endState (step m)).killed = false := by
  obtain ⟨⟨o, hmem, ho⟩, -⟩ := hs
  have hplain : ∀ o ∈ straightOps, isJump o = false ∧ o ≠ .ret ∧ o ≠ .exit := by decide
  obtain ⟨hjump, hret, hexit⟩ := hplain o hmem
  obtain ⟨m₁, hr, -⟩ := execute_of_done hi ho hd
  have hu := (composed_execute o).unmoved hjump hret hexit (m.begin i)
  rw [hr] at hu
  have hk : m₁.killed = false := hu.killed.trans (isRunning_iff.mp (fetch?_eq_some_iff.mp hi).1).1
  rw [step_of_unbranched hi ho hr hu.branched hk]
  exact ⟨congrArg (· + 1) hu.pc, hk⟩

/-- The ideal machine executes some instructions one after another. -/
def idealRun (is : List Instruction) : Option Numbers := is.foldlM (fun q i => i.ideal q) ([], [])

theorem idealRun_append (is : List Instruction) (i : Instruction) :
    idealRun (is ++ [i]) = (idealRun is).bind i.ideal := by
  simp [idealRun, List.foldlM_append]

variable {p : Program} {source : Source} {sink : Sink}

/-- While all goes well, straight-line code is at the line whose number is that of the steps made,
and the numbers on the ideal machine are those of the stacks. -/
theorem represents_stateAt (hp : ∀ i ∈ p.toList, i.Straight) (k : Nat)
    (hd : ∀ j < k, outcome (stateAt p source sink j) = .done)
    (hint : ∀ j ≤ k, Integral (stateAt p source sink j)) :
    ∃ q, idealRun (p.toList.take k) = some q ∧ Represents (stateAt p source sink k) q ∧
      (stateAt p source sink k).pc = min k p.size ∧ (stateAt p source sink k).killed = false := by
  induction k with
  | zero => exact ⟨([], []), rfl, ⟨.nil, .nil⟩, by simp [stateAt, after, start], rfl⟩
  | succ k ih =>
    obtain ⟨q, hrun, hq, hpc, hk⟩ := ih (fun j hj => hd j (by omega)) fun j hj => hint j (by omega)
    have hsucc : stateAt p source sink (k + 1) = endState (step (stateAt p source sink k)) :=
      after_succ k _
    obtain ⟨hw, hprog⟩ := stateAt_wellFormed p source sink k
    by_cases hlt : k < p.size
    · obtain ⟨i, hi⟩ := Program.get?_lt hlt
      have hfetch : (stateAt p source sink k).fetch? = some i := by
        rw [fetch?_eq_some_iff, isRunning_iff, hprog, hpc, Nat.min_eq_left (by omega)]
        exact ⟨⟨hk, hlt⟩, hi⟩
      have hstraight := hp i (Program.mem_of_get? hi)
      have hdone := hd k (by omega)
      have hall := hint (k + 1) (Nat.le_refl _)
      rw [hsucc] at hall ⊢
      obtain ⟨q', hq', hrep⟩ := represents_step hw.bounded hfetch hstraight hdone hall hq
      obtain ⟨hpc', hk'⟩ := pc_of_straight hfetch hstraight hdone
      refine ⟨q', ?_, hrep, by omega, hk'⟩
      rw [List.take_add_one, ← Program.get?_eq, hi, Option.toList_some, idealRun_append, hrun]
      exact hq'
    · -- the program has been executed to its end
      have hstop : (stateAt p source sink k).isRunning = false := by
        rw [← Bool.not_eq_true, isRunning_iff, hprog]
        omega
      have htake : p.toList.take (k + 1) = p.toList.take k := by
        rw [List.take_of_length_le, List.take_of_length_le]
        all_goals rw [← Program.size_eq]; omega
      rw [hsucc, step_of_stopped hstop, htake]
      exact ⟨q, hrun, hq, by rw [endState_ok]; omega, hk⟩

/-- **Integers are exact.**  As long as the steps of straight-line code go well and leave only
integers on the stacks of values, these are the numbers that the same instructions leave on a
machine whose integers are of any size: no integer is a wrapped result. -/
theorem integers_exact {p : Program} (hp : ∀ i ∈ p.toList, i.Straight) (source : Source)
    (sink : Sink) (k : Nat) (hd : ∀ j < k, outcome (stateAt p source sink j) = .done)
    (hint : ∀ j ≤ k, Integral (stateAt p source sink j)) :
    ∃ q, idealRun (p.toList.take k) = some q ∧ Represents (stateAt p source sink k) q := by
  obtain ⟨q, hrun, hq, -⟩ := represents_stateAt hp k hd hint
  exact ⟨q, hrun, hq⟩

/-- A sum at the limit of 64 bits, which goes to the registers, a negative remainder and a count. -/
def nearLimit : Program :=
  .ofInstructions [
    .ofMnemonic 10 "PUSH" ["9223372036854775806"],
    .ofMnemonic 20 "INC" [],
    .ofMnemonic 30 "YEET" [],
    .ofMnemonic 40 "PUSH" ["-7", "3"],
    .ofMnemonic 50 "MOD" [],
    .ofMnemonic 60 "RSIZE" []]

theorem integers_exact_nearLimit :
    idealRun (nearLimit.toList.take 6) = some ([1, -1], [9223372036854775807]) ∧
    Represents (stateAt nearLimit (.ofText "") .capture 6) ([1, -1], [9223372036854775807]) := by
  have hrun : idealRun (nearLimit.toList.take 6) = some ([1, -1], [9223372036854775807]) := by
    decide +kernel
  have hp : ∀ i ∈ nearLimit.toList, i.Straight := by decide +kernel
  obtain ⟨q, hq, hrep⟩ := integers_exact hp (.ofText "") .capture 6 (by decide +kernel)
    (by decide +kernel)
  cases hrun.symm.trans hq
  exact ⟨hrun, hrep⟩

end Machine

end Stackline
