import Stackline.Proofs.Machine.Frame
import Stackline.Proofs.Machine.Run
import Stackline.Proofs.Number.Integer

/-!
# What a jump does

A jump tests its `condition` on the newest operand.  If the condition does not hold, the step only
moves on.  If it holds, the first parameter gives a target, and `Gives` lists how: as the integer it
begins with, or by a reference to an operand, which `$n` also takes out and which stands for a line
as `Value.IsLine` says.  `Program.Lands` says where a target leads: to the first line that is not
before it, or else to the end of the program.  `step_jump` puts the parts together into the machine
after the step.
-/

namespace Stackline

namespace Program

variable {p : Program} {target : Int} {k : Nat}

/-- Where a jump ends: at the first position that reaches its target, or at the end of the program
if no position does or if there is no target. -/
inductive Lands (p : Program) : Option Int → Nat → Prop
  | first {target : Int} {k : Nat} (h : p.Reaches target k)
      (hleast : ∀ j, p.Reaches target j → k ≤ j) : Lands p (some target) k
  | beyond {target : Int} (h : ∀ j, ¬ p.Reaches target j) : Lands p (some target) p.size
  | nowhere : Lands p none p.size

theorem lands_before (p : Program) (target : Int) : p.Lands (some target) (p.before target) := by
  have hle := p.before_le_size target
  by_cases hlt : p.before target < p.size
  · exact .first (reaches_iff.mpr ⟨Nat.le_refl _, hlt⟩) fun j hj => (reaches_iff.mp hj).1
  · have hsize : p.before target = p.size := by omega
    rw [hsize]
    refine .beyond fun j hj => ?_
    have := reaches_iff.mp hj
    omega

theorem Lands.eq_before (h : p.Lands (some target) k) : k = p.before target := by
  have hle := p.before_le_size target
  cases h with
  | first h hleast =>
    obtain ⟨hge, hlt⟩ := reaches_iff.mp h
    have := hleast _ (reaches_iff.mpr ⟨Nat.le_refl _, by omega⟩)
    omega
  | beyond h =>
    have := h (p.before target)
    rw [reaches_iff] at this
    omega

/-- A jump always has an end. -/
theorem exists_lands (p : Program) (target : Option Int) : ∃ k, p.Lands target k := by
  cases target with
  | none => exact ⟨_, .nowhere⟩
  | some target => exact ⟨_, lands_before p target⟩

end Program

/-! ### Line numbers -/

namespace Number

/-- `n` is `m * 2 ^ q` without its fraction. -/
def IsFloor (m : Nat) (q : Int) (n : Nat) : Prop :=
  n * Nat.pow 2 (-q).toNat ≤ m * Nat.pow 2 q.toNat ∧
    m * Nat.pow 2 q.toNat < (n + 1) * Nat.pow 2 (-q).toNat

theorem floorScale_eq_iff {m n : Nat} {q : Int} : Binary.floorScale m q = n ↔ IsFloor m q n := by
  unfold Binary.floorScale IsFloor
  by_cases hq : 0 ≤ q
  · have hzero : Nat.pow 2 (-q).toNat = 1 := by rw [Int.toNat_of_nonpos (by omega)]
    rw [if_pos hq, hzero, Nat.mul_one, Nat.mul_one]
    omega
  · have hzero : Nat.pow 2 q.toNat = 1 := by rw [Int.toNat_of_nonpos (by omega)]
    have hpos : 0 < Nat.pow 2 (-q).toNat := Nat.pow_pos (by decide)
    rw [if_neg hq, hzero, Nat.mul_one, Nat.div_eq_iff hpos, Nat.add_mul, Nat.one_mul]
    omega

/-- A number beyond the integers of 64 bits becomes the last of them. -/
theorem toInt_ofIntClamp_eq (n : Int) :
    (Int64.ofIntClamp n).toInt = max Int64.minValue.toInt (min Int64.maxValue.toInt n) := by
  have hle : Int64.minValue.toInt ≤ Int64.maxValue.toInt := by decide
  unfold Int64.ofIntClamp
  split
  · split
    · rw [Int64.toInt_ofIntLE]
      omega
    · omega
  · omega

end Number

namespace Value

/-- The lines that values stand for: an integer for itself; a finite double for what it is without its
fraction, or for the last integer on its side; a text for the integer at its start. -/
inductive IsLine : Value → Int → Prop
  | integer (n : Int64) : IsLine (.integer n) n.toInt
  | float {x : Float} {negative : Bool} {m n : Nat} {q : Int}
      (hx : Number.Binary.ofFloat x = .finite negative m q) (hn : Number.IsFloor m q n) :
      IsLine (.float x) (max Int64.minValue.toInt
        (min Int64.maxValue.toInt (if negative then -(n : Int) else n)))
  | text {s : String} {n : Int} (h : Number.StartsWith s.toList n) : IsLine (.text s) n

theorem toInteger?_eq_some_iff {v : Value} {n : Int} :
    v.toInteger?.map Int64.toInt = some n ↔ v.IsLine n := by
  cases v with
  | integer k =>
    refine ⟨fun h => Option.some.inj h ▸ .integer k, fun h => ?_⟩
    cases h
    rfl
  | float x =>
    rw [toInteger?, Option.map_map]
    constructor
    · intro h
      obtain ⟨k, hk, rfl⟩ := Option.map_eq_some_iff.mp h
      unfold Number.integerPart? at hk
      split at hk
      · rename_i negative m q hx
        rw [← Option.some.inj hk, Function.comp_apply, Number.toInt_ofIntClamp_eq]
        exact .float hx (Number.floorScale_eq_iff.mp rfl)
      · cases hk
    · intro h
      cases h with
      | float hx hn =>
        unfold Number.integerPart?
        rw [hx, ← Number.floorScale_eq_iff.mpr hn]
        exact congrArg some (Number.toInt_ofIntClamp_eq _)
  | text s =>
    refine Number.integerPrefix_eq_some_iff.trans ⟨.text, fun h => ?_⟩
    cases h with
    | text h => exact h
  | null => exact ⟨nofun, nofun⟩

end Value

namespace Machine

open Text (trim)

variable {m : Machine} {i : Instruction} {o : Opcode} {operands rest : List Value}
  {target : Option Int} {param : Option String} {k : Nat}

/-! ### Targets -/

/-- A number after the sign of a reference: digits with an optional plus and blanks around them, of
which the value fits 64 bits. -/
def IsDepth (cs : List Char) (n : Nat) : Prop :=
  ∃ digits, (trim cs = digits ∨ trim cs = '+' :: digits) ∧ digits ≠ [] ∧
    (∀ c ∈ digits, c.isDigit = true) ∧ Nat.ofDigitChars 10 digits 0 = n ∧ n < UInt64.size

/-- The number of which something holds, if it holds of any. -/
def Determines (R : Int → Prop) : Option Int → Prop
  | some n => R n
  | none => ∀ n, ¬ R n

theorem determines_iff {R : Int → Prop} {o : Option Int} (h : ∀ n, o = some n ↔ R n) :
    Determines R target ↔ o = target := by
  cases target with
  | some n => exact (h n).symm
  | none =>
    cases o with
    | some n => exact ⟨fun hn => absurd ((h n).mp rfl) (hn n), nofun⟩
    | none => exact ⟨fun _ => rfl, fun _ n hn => nomatch (h n).mpr hn⟩

/-- What a first parameter gives, if these are the operands with the newest in front: the target, if
there is one, and the operands that are left. -/
inductive Gives (operands : List Value) : Option String → Option Int → List Value → Prop
  | absent : Gives operands none none operands
  /-- `@n` is the operand at depth `n`. -/
  | copied {param : String} {cs : List Char} {n : Nat} {v : Value} {target : Option Int}
      (hp : trim param.toList = '@' :: cs) (hn : IsDepth cs n) (hpos : 1 ≤ n)
      (hv : operands[n - 1]? = some v) (ht : Determines v.IsLine target) :
      Gives operands (some param) target operands
  /-- `$n` is the operand at depth `n` and takes it out, whether or not it is a line number. -/
  | removed {param : String} {cs : List Char} {n : Nat} {v : Value} {target : Option Int}
      (hp : trim param.toList = '$' :: cs) (hn : IsDepth cs n) (hpos : 1 ≤ n)
      (hv : operands[n - 1]? = some v) (ht : Determines v.IsLine target) :
      Gives operands (some param) target (operands.eraseIdx (n - 1))
  /-- A reference to no operand. -/
  | dangling {param : String} {c : Char} {cs : List Char} (hc : c = '@' ∨ c = '$')
      (hp : trim param.toList = c :: cs)
      (hn : ∀ n, IsDepth cs n → ¬ (1 ≤ n ∧ n ≤ operands.length)) :
      Gives operands (some param) none operands
  /-- Anything else is the integer at its start. -/
  | written {param : String} {target : Option Int} (ha : (trim param.toList).head? ≠ some '@')
      (hd : (trim param.toList).head? ≠ some '$')
      (ht : Determines (Number.StartsWith (trim param.toList)) target) :
      Gives operands (some param) target operands

/-- A depth is read from what is left of the text without a plus in front. -/
theorem exists_depth?_eq (cs : List Char) : ∃ digits,
    depth? cs = (if digits.isEmpty || !digits.all Char.isDigit then none
      else if Number.natOf digits < UInt64.size then some (Number.natOf digits) else none) ∧
    ∀ ds, (∀ c ∈ ds, c.isDigit = true) →
      ((trim cs = ds ∨ trim cs = '+' :: ds) ↔ ds = digits) := by
  unfold depth?
  cases trim cs with
  | nil => exact ⟨[], rfl, fun ds _ => by simp [eq_comm]⟩
  | cons c rest =>
    by_cases hc : c = '+'
    · subst hc
      refine ⟨rest, rfl, fun ds hds => ?_⟩
      have hne : '+' :: rest ≠ ds := by
        rintro rfl
        exact absurd (hds '+' List.mem_cons_self) (by decide)
      simp [hne, eq_comm]
    · refine ⟨c :: rest, ?_, fun ds _ => ?_⟩
      · split
        · next h => exact absurd (List.cons.inj h).1 hc
        · rfl
      · simp [hc, eq_comm]

theorem depth?_eq_some_iff {cs : List Char} {n : Nat} : depth? cs = some n ↔ IsDepth cs n := by
  obtain ⟨digits, hdigits, hsign⟩ := exists_depth?_eq cs
  rw [hdigits]
  constructor
  · intro h
    split at h
    · cases h
    · next hall =>
      simp only [Bool.or_eq_true, List.isEmpty_iff, Bool.not_eq_true', not_or,
        Bool.not_eq_false, List.all_eq_true] at hall
      split at h
      · next hlt =>
        obtain rfl := Option.some.inj h
        exact ⟨digits, (hsign digits hall.2).mpr rfl, hall.1, hall.2, rfl, hlt⟩
      · cases h
  · rintro ⟨ds, htrim, hne, hall, hn, hlt⟩
    obtain rfl : Number.natOf ds = n := hn
    obtain rfl := (hsign ds hall).mp htrim
    have hskip : (ds.isEmpty || !ds.all Char.isDigit) = false := by
      simp [hne, List.all_eq_true.mpr hall]
    rw [hskip, if_neg Bool.false_ne_true, if_pos hlt]

/-- Every parameter gives something. -/
theorem exists_gives (operands : List Value) (param : Option String) :
    ∃ target rest, Gives operands param target rest := by
  cases param with
  | none => exact ⟨_, _, .absent⟩
  | some param =>
    by_cases hplain : (trim param.toList).head? ≠ some '@' ∧ (trim param.toList).head? ≠ some '$'
    · exact ⟨_, _, .written hplain.1 hplain.2
        ((determines_iff fun _ => Number.integerPrefix_eq_some_iff).mpr rfl)⟩
    · obtain ⟨c, cs, hc, hp⟩ :
          ∃ c cs, (c = '@' ∨ c = '$') ∧ trim param.toList = c :: cs := by
        cases hp : trim param.toList with
        | nil => simp [hp] at hplain
        | cons c cs => exact ⟨c, cs, by simpa [hp, Classical.or_iff_not_imp_left] using hplain, rfl⟩
      by_cases hn : ∃ n, IsDepth cs n ∧ 1 ≤ n ∧ n ≤ operands.length
      · obtain ⟨n, hdepth, hpos, hle⟩ := hn
        have hv : operands[n - 1]? = some operands[n - 1] := List.getElem?_eq_getElem (by omega)
        have ht := (determines_iff fun _ => operands[n - 1].toInteger?_eq_some_iff).mpr rfl
        rcases hc with rfl | rfl
        · exact ⟨_, _, .copied hp hdepth hpos hv ht⟩
        · exact ⟨_, _, .removed hp hdepth hpos hv ht⟩
      · exact ⟨_, _, .dangling hc hp fun n hdepth hin => hn ⟨n, hdepth, hin⟩⟩

/-! ### Jumps -/

/-- What is noted of a jump: why it went to the end, if it did. -/
def jumpNotes (p : Program) (param : Option String) : Option Int → Nat → Array Event
  | none, _ => #[.noTarget param]
  | some target, k => if k < p.size then #[] else #[.noSuchLine target]

theorem jumpToLine_of_lands {target : Int} (h : m.program.Lands (some target) k)
    (param : Option String) : m.jumpToLine target true =
      { m with pc := k, branched := true,
               log := m.log ++ jumpNotes m.program param (some target) k } := by
  have hle := m.program.before_le_size target
  obtain rfl := h.eq_before
  have hnotes : jumpNotes m.program param (some target) (m.program.before target) =
      if m.program.before target < m.program.size then #[] else #[.noSuchLine target] := rfl
  unfold jumpToLine
  rw [resolve_index, hnotes]
  by_cases hlt : m.program.before target < m.program.size
  · rw [if_pos hlt, if_pos hlt, Array.append_empty]
  · have hsize : m.program.before target = m.program.size := by omega
    rw [if_neg hlt, if_neg hlt, Array.append_singleton, hsize]
    rfl

/-- The parameter gives what it refers to, and leaves the operands as the reference does. -/
theorem reference_of_gives {param : String}
    (h : Gives m.operands.entries (some param) target rest) :
    ∃ v, m.reference param = (v, { m with operands := .ofEntries rest }) ∧
      (v.bind Value.toInteger?).map Int64.toInt = target := by
  have hsame : m = { m with operands := .ofEntries m.operands.entries } := by
    rw [← Stack.eq_ofEntries rfl]
  cases h with
  | @copied _ cs n v _ hp hn hpos hv ht =>
    refine ⟨some v, ?_, (determines_iff fun _ => v.toInteger?_eq_some_iff).mp ht⟩
    unfold reference
    simp only [hp, depth?_eq_some_iff.mpr hn, Option.bind_some, Stack.peek?_of_getElem? hpos hv]
    rw [← hsame]
  | @removed _ cs n v _ hp hn hpos hv ht =>
    refine ⟨some v, ?_, (determines_iff fun _ => v.toInteger?_eq_some_iff).mp ht⟩
    unfold reference
    simp only [hp, depth?_eq_some_iff.mpr hn, Stack.remove?_of_getElem? hpos hv]
  | @dangling _ c cs hc hp hn =>
    refine ⟨none, ?_, rfl⟩
    rw [← hsame]
    cases hd : depth? cs with
    | none =>
      unfold reference
      rcases hc with rfl | rfl <;> simp only [hp, hd, Option.bind_none]
    | some n =>
      have hout := hn n (depth?_eq_some_iff.mp hd)
      unfold reference
      rcases hc with rfl | rfl
      · simp only [hp, hd, Option.bind_some, Stack.peek?_eq_none hout]
      · simp only [hp, hd, Stack.remove?_eq_none hout]
  | written ha hd ht =>
    refine ⟨some (.text (.ofList (trim param.toList))), ?_, ?_⟩
    · rw [← hsame]
      exact reference_of_plain m ha hd
    · rw [← (determines_iff fun _ => Number.integerPrefix_eq_some_iff).mp ht]
      simp [Value.toInteger?]

/-- A jump takes its target from the first parameter of the current instruction. -/
theorem jump_of_gives (hc : m.current = some i)
    (h : Gives m.operands.entries i.params.head? target rest) (hk : m.program.Lands target k) :
    m.jump = { m with
      pc := k
      branched := true
      operands := .ofEntries rest
      log := m.log ++ jumpNotes m.program i.params.head? target k } := by
  have htarget : m.target? = i.params.head? := by
    unfold target?
    rw [hc]
    rfl
  unfold jump
  rw [htarget]
  cases hparam : i.params.head? with
  | none =>
    rw [hparam] at h
    cases h
    cases hk
    rw [jumpNotes, Array.append_singleton, ← Stack.eq_ofEntries rfl]
    rfl
  | some param =>
    rw [hparam] at h
    obtain ⟨v, hv, htarget⟩ := reference_of_gives h
    simp only [hv]
    cases hn : v.bind Value.toInteger? with
    | none =>
      rw [hn] at htarget
      subst htarget
      cases hk
      cases v with
      | none =>
        rw [Option.map_none, jumpNotes, Array.append_singleton]
        rfl
      | some v =>
        have hnone : v.toInteger? = none := hn
        rw [Option.map_none, jumpNotes, Array.append_singleton]
        simp only [hnone]
        rfl
    | some n =>
      rw [hn] at htarget
      subst htarget
      obtain ⟨v, rfl, hint⟩ := Option.bind_eq_some_iff.mp hn
      simp only [hint]
      exact jumpToLine_of_lands (m := { m with operands := .ofEntries rest }) hk (some param)

/-! ### Conditions -/

/-- The newest operand as a number. -/
def number? (operands : List Value) : Option Float := operands.head?.bind Value.toFloat?

/-- Whether a jump is taken with these operands, the newest in front.  A text, null and what is no
number at all pass no test of a number. -/
def condition : Opcode → List Value → Bool
  | .goto, _ | .gosub, _ => true
  | .jp, operands => (number? operands).any (0 < ·)
  | .jnp, operands => (number? operands).any (· ≤ 0)
  | .jn, operands => (number? operands).any (· < 0)
  | .jnn, operands => (number? operands).any (0 ≤ ·)
  | .jz, operands => (number? operands).any (· == 0)
  | .jnl, operands => operands.head?.any Value.isNull
  | _, _ => false

/-- The operands among which a jump that is taken finds its target: `JNL` has taken off the null. -/
def tested (o : Opcode) (operands : List Value) : List Value :=
  if o = .jnl then operands.tail else operands

/-- The machine that looks for the target of a jump, after the test and after the line of a `GOSUB`
has been remembered. -/
def poised (o : Opcode) (i : Instruction) (m : Machine) : Machine :=
  { m with
    operands := .ofEntries (tested o m.operands.entries)
    calls := if o = .gosub then .ofEntries (i.line :: m.calls.entries) else m.calls }

theorem poised_of_ne (hnull : o ≠ .jnl) (hcall : o ≠ .gosub) (i : Instruction) (m : Machine) :
    poised o i m = m := by
  unfold poised tested
  rw [if_neg hnull, if_neg hcall, ← Stack.eq_ofEntries rfl]

theorem jumpIf_of_le (test : Float → Bool) (h : 1 ≤ m.operands.size) :
    jumpIf test m = .ok () (if fires test m.operands then m.jump else m) := by
  rw [jumpIf_eq]
  exact bind_of_ok (require_of_le h)

theorem jumpIfNull_of_cons {v : Value} (h : m.operands.entries = v :: rest) :
    jumpIfNull m = .ok () (if v.isNull then (m.withOperands rest).jump else m) := by
  have hpeek : peek 1 m = .ok v m := peek_of_getElem? (Nat.le_refl 1) (by rw [h]; rfl)
  refine (bind_of_ok (require_of_entries h (by simp))).trans ((bind_of_ok hpeek).trans ?_)
  cases hv : v.isNull with
  | true => exact bind_of_ok (take_of_cons h)
  | false => rfl

/-- A jump whose condition holds goes to its target. -/
theorem execute_of_condition (hj : isJump o = true) (hc : m.current = some i)
    (hdeep : o = .goto ∨ o = .gosub ∨ 1 ≤ m.operands.size)
    (hroom : o = .gosub → m.calls.size < Stack.capacity)
    (h : condition o m.operands.entries = true) : execute o m = .ok () (poised o i m).jump := by
  have htest (test : Float → Bool) (hsize : 1 ≤ m.operands.size)
      (ht : fires test m.operands = true) : jumpIf test m = .ok () m.jump := by
    rw [jumpIf_of_le test hsize, ht, if_pos rfl]
  cases o with
  | goto =>
    rw [poised_of_ne (by decide) (by decide)]
    rfl
  | jp | jnp | jn | jnn | jz =>
    rw [poised_of_ne (by decide) (by decide)]
    exact htest _ (by simpa using hdeep) h
  | jnl =>
    obtain ⟨v, l, hl⟩ := Stack.exists_cons_of_size (s := m.operands) (by simpa using hdeep)
    have hnull : v.isNull = true := by simpa [condition, hl] using h
    refine (jumpIfNull_of_cons hl).trans ?_
    simp [hnull, poised, tested, withOperands, hl]
  | gosub =>
    refine (callLine_of_lt hc (hroom rfl)).trans ?_
    unfold poised tested withCalls
    rw [if_neg (by decide), if_pos rfl, ← Stack.eq_ofEntries rfl]
  | _ => cases hj

/-- A jump whose condition does not hold does nothing. -/
theorem execute_of_not_condition (hj : isJump o = true)
    (hdeep : o = .goto ∨ o = .gosub ∨ 1 ≤ m.operands.size)
    (h : condition o m.operands.entries = false) : execute o m = .ok () m := by
  have htest (test : Float → Bool) (hsize : 1 ≤ m.operands.size)
      (ht : fires test m.operands = false) : jumpIf test m = .ok () m := by
    rw [jumpIf_of_le test hsize, ht, if_neg Bool.false_ne_true]
  cases o with
  | goto | gosub => cases h
  | jp | jnp | jn | jnn | jz => exact htest _ (by simpa using hdeep) h
  | jnl =>
    obtain ⟨v, l, hl⟩ := Stack.exists_cons_of_size (s := m.operands) (by simpa using hdeep)
    have hnull : v.isNull = false := by simpa [condition, hl] using h
    refine (jumpIfNull_of_cons hl).trans ?_
    rw [hnull, if_neg Bool.false_ne_true]
  | _ => cases hj

/-! ### Steps -/

/-- **What a jump does.**  Let a running machine execute a jump that finds an operand, if it needs
one, and has room for its line, if it is a `GOSUB`.  If its condition does not hold, the machine
only moves on to the next instruction, which is all that is noted.  If it holds, the first parameter
gives a target among the operands, without the null that `JNL` takes off, and leaves some of them;
and the machine goes to where the target lands.  A `GOSUB` remembers its line.  Nothing else about
the machine changes. -/
theorem step_jump (hi : m.fetch? = some i) (ho : i.opcode = some o) (hj : isJump o = true)
    (hdeep : o = .goto ∨ o = .gosub ∨ 1 ≤ m.operands.size)
    (hroom : o = .gosub → m.calls.size < Stack.capacity) :
    (condition o m.operands.entries = false →
      step m = .ok () { m with
        pc := m.pc + 1
        branched := false
        current := some i
        log := m.log.push (.step m.pc i.line i.mnemonic) }) ∧
    (condition o m.operands.entries = true →
      (∃ target rest k, Gives (tested o m.operands.entries) i.params.head? target rest ∧
        m.program.Lands target k) ∧
      ∀ target rest k, Gives (tested o m.operands.entries) i.params.head? target rest →
        m.program.Lands target k →
        step m = .ok () { m with
          pc := k
          branched := true
          current := some i
          operands := .ofEntries rest
          calls := if o = .gosub then .ofEntries (i.line :: m.calls.entries) else m.calls
          log := m.log.push (.step m.pc i.line i.mnemonic) ++
            jumpNotes m.program i.params.head? target k }) := by
  have hk : m.killed = false := (isRunning_iff.mp (fetch?_eq_some_iff.mp hi).1).1
  refine ⟨fun h => ?_, fun h => ⟨?_, fun target rest k hgives hlands => ?_⟩⟩
  · exact step_of_unbranched hi ho (execute_of_not_condition (m := m.begin i) hj hdeep h) rfl hk
  · obtain ⟨target, rest, hgives⟩ := exists_gives (tested o m.operands.entries) i.params.head?
    obtain ⟨k, hlands⟩ := m.program.exists_lands target
    exact ⟨target, rest, k, hgives, hlands⟩
  · have hjump := jump_of_gives (m := poised o i (m.begin i)) rfl hgives hlands
    rw [step_of_fetch hi, executeInstruction_of_some ho,
      execute_of_condition (m := m.begin i) hj rfl hdeep hroom h, hjump]
    rfl

/-- A `JNL` by reference to the second operand. -/
def nullLine : Instruction := .ofMnemonic 10 "JNL" [" $ +2"]

/-- A null on top of a text and a number between two lines. -/
def nullJump : Machine :=
  { start (.ofInstructions [nullLine, .ofMnemonic 30 "PUSH" ["1"],
      .ofMnemonic 40 "EXIT" []]) (.ofText "") .capture with
    operands := .ofEntries [.null, .text "x", .integer 35, .integer 7] }

/-- A `GOTO` that names its target. -/
def writtenLine (param : String) : Instruction := .ofMnemonic 10 "GOTO" [param]

/-- A jump to a written line, before the same two lines. -/
def writtenJump (param : String) : Machine :=
  start (.ofInstructions [writtenLine param, .ofMnemonic 30 "PUSH" ["1"],
    .ofMnemonic 40 "EXIT" []]) (.ofText "") .capture

/-- The reference counts below the null, which is gone, and takes the number out.  A written number
ends at the first character that is no digit.  The least integer is no line number when it is
written, since its magnitude does not fit, and the jump ends the program. -/
theorem step_jump_targets :
    (nullJump.fetch? = some nullLine ∧ condition .jnl nullJump.operands.entries = true ∧
      ∃ m', step nullJump = .ok () m' ∧ m'.pc = 2 ∧
        m'.operands.entries = [.text "x", .integer 7]) ∧
    (∃ m', step (writtenJump "+35x") = .ok () m' ∧ m'.pc = 2) ∧
    ∃ m', step (writtenJump "-9223372036854775808") = .ok () m' ∧
      m'.pc = (writtenJump "-9223372036854775808").program.size := by
  have hfetch (param : String) : (writtenJump param).fetch? = some (writtenLine param) := rfl
  have hgoto : Opcode.ofMnemonic? "GOTO" = some .goto := by decide +kernel
  refine ⟨?_, ?_, ?_⟩
  · have hfetch : nullJump.fetch? = some nullLine := by decide +kernel
    have hcond : condition .jnl nullJump.operands.entries = true := rfl
    have hbefore : nullJump.program.before 35 = 2 := by decide +kernel
    have htrim : trim " $ +2".toList = '$' :: " +2".toList := by decide +kernel
    have hdepth : IsDepth " +2".toList 2 :=
      ⟨['2'], .inr (by decide +kernel), nofun, by simp, rfl, by decide⟩
    have hv : (tested .jnl nullJump.operands.entries)[2 - 1]? = some (.integer 35) := rfl
    have hgives : Gives (tested .jnl nullJump.operands.entries) nullLine.params.head? (some 35)
        [.text "x", .integer 7] := .removed htrim hdepth (by decide) hv (Value.IsLine.integer 35)
    have hlands := nullJump.program.lands_before 35
    rw [hbefore] at hlands
    have hopcode : nullLine.opcode = some .jnl := by decide +kernel
    have hstep := (step_jump hfetch hopcode rfl (.inr (.inr (by decide))) (by decide)).2 hcond
    exact ⟨hfetch, hcond, _, hstep.2 _ _ _ hgives hlands, rfl, rfl⟩
  · have htrim : trim "+35x".toList = [] ++ (['+'] ++ (['3', '5'] ++ ['x'])) := by decide +kernel
    have hgives : Gives [] (some "+35x") (some 35) [] := by
      refine .written (by rw [htrim]; decide) (by rw [htrim]; decide) ?_
      rw [htrim]
      exact .mk (by simp) .plus (by simp) (by simp) (by simp) (by decide)
    have hlands := (writtenJump "+35x").program.lands_before 35
    have hbefore : (writtenJump "+35x").program.before 35 = 2 := by decide +kernel
    rw [hbefore] at hlands
    have hstep := (step_jump (hfetch "+35x") hgoto rfl (.inl rfl) (by decide)).2 rfl
    exact ⟨_, hstep.2 _ _ _ hgives hlands, rfl⟩
  · have hnone : (Number.integerPrefix (trim "-9223372036854775808".toList)).map Int64.toInt =
        none := by decide +kernel
    have hgives : Gives [] (some "-9223372036854775808") none [] :=
      .written (by decide +kernel) (by decide +kernel)
        ((determines_iff fun _ => Number.integerPrefix_eq_some_iff).mpr hnone)
    have hstep := (step_jump (hfetch "-9223372036854775808") hgoto rfl (.inl rfl) (by decide)).2
      rfl
    exact ⟨_, hstep.2 _ _ _ hgives .nowhere, rfl⟩

end Machine

end Stackline
