import Mathlib.Logic.ExistsUnique
import Stackline.Error
import Stackline.Proofs.Value.Arithmetic

/-!
# Comparisons

Integers are ordered as numbers.  Texts are compared byte by byte, and UTF-8 is made so that this is
the order of their code points: of two characters the one with the greater code point has the greater
byte where their bytes first differ, and they do differ before one of them ends
(`compareBytes_utf8EncodeChar`).  So on two integers or two texts all five comparisons read off one
linear order, while null, and a text beside something else, have no order at all
(`comparisons_coherent`).
-/

namespace Stackline

namespace Value

/-! ### Bytes -/

theorem compareBytes_append (front u v : List UInt8) :
    compareBytes (front ++ u) (front ++ v) = compareBytes u v := by
  induction front with
  | nil => rfl
  | cons a front ih => simp [compareBytes, ih]

theorem compareBytes_self (u : List UInt8) : compareBytes u u = .eq := by
  have h := compareBytes_append u [] []
  rwa [List.append_nil] at h

theorem compareBytes_cons_eq_lt (a b : UInt8) (u v : List UInt8) :
    compareBytes (a :: u) (b :: v) = .lt ↔
      a.toNat < b.toNat ∨ a.toNat = b.toNat ∧ compareBytes u v = .lt := by
  grind [compareBytes]

theorem swap_compareBytes (u v : List UInt8) : (compareBytes u v).swap = compareBytes v u := by
  fun_induction compareBytes u v with
  | case1 => rfl
  | case2 b v => rfl
  | case3 a u => rfl
  | case4 a u b v hlt => grind [compareBytes, Ordering.swap]
  | case5 a u b v _ hgt => grind [compareBytes, Ordering.swap]
  | case6 a u b v hlt hgt ih => grind [compareBytes]

/-! ### Characters -/

theorem toNat_lt (c : Char) : c.toNat < 0x110000 := by
  rcases c.valid with h | ⟨-, h⟩
  · exact Nat.lt_trans h (by decide)
  · exact h

/-- The bytes of a character are less than those of a character with a greater code point, whatever
follows either of them. -/
theorem compareBytes_utf8EncodeChar {c d : Char} (h : c.toNat < d.toNat) (u v : List UInt8) :
    compareBytes (String.utf8EncodeChar c ++ u) (String.utf8EncodeChar d ++ v) = .lt := by
  have hd := toNat_lt d
  unfold Char.toNat at h hd
  unfold String.utf8EncodeChar
  dsimp only
  generalize c.val.toNat = m at h ⊢
  generalize d.val.toNat = n at h hd ⊢
  -- The first byte grows with the number of bytes.  Where that is the same, the bytes are the digits
  -- to the base 64, each with the same amount added.
  repeat' split
  all_goals
    simp (disch := omega) only [List.cons_append, compareBytes_cons_eq_lt, UInt8.toNat_ofNat',
      Nat.mod_eq_of_lt]
    omega

/-! ### Texts -/

/-- The text `s` comes before `t` by code points: where they first differ it has the lesser code
point, or it ends there and `t` does not. -/
def Precedes (s t : String) : Prop := List.Lex (fun c d => c.toNat < d.toNat) s.toList t.toList

theorem precedes_iff_lt {s t : String} : Precedes s t ↔ s < t := Iff.rfl

theorem bytes_eq_flatMap (s : String) :
    s.toUTF8.data.toList = s.toList.flatMap String.utf8EncodeChar := by
  rw [String.toUTF8_eq_toByteArray, ← String.utf8Encode_toList]
  exact List.toList_data_toByteArray

theorem compareBytes_of_lex {cs ds : List Char}
    (h : List.Lex (fun c d => c.toNat < d.toNat) cs ds) :
    compareBytes (cs.flatMap String.utf8EncodeChar) (ds.flatMap String.utf8EncodeChar) = .lt := by
  induction h with
  | @nil d ds =>
    obtain ⟨b, v, hd⟩ := List.exists_cons_of_ne_nil (String.utf8EncodeChar_ne_nil (c := d))
    rw [List.flatMap_cons, hd]
    rfl
  | @rel c cs d ds hlt =>
    rw [List.flatMap_cons, List.flatMap_cons]
    exact compareBytes_utf8EncodeChar hlt _ _
  | @cons c cs ds _ ih =>
    rw [List.flatMap_cons, List.flatMap_cons, compareBytes_append]
    exact ih

theorem compareTexts_of_precedes {s t : String} (h : Precedes s t) : compareTexts s t = .lt := by
  rw [compareTexts, bytes_eq_flatMap, bytes_eq_flatMap]
  exact compareBytes_of_lex h

/-- Comparing texts byte by byte finds their order by code points. -/
theorem compareTexts_cases (s t : String) :
    Precedes s t ∧ compareTexts s t = .lt ∨
    s = t ∧ compareTexts s t = .eq ∨
    Precedes t s ∧ compareTexts s t = .gt := by
  by_cases hlt : Precedes s t
  · exact .inl ⟨hlt, compareTexts_of_precedes hlt⟩
  · by_cases hgt : Precedes t s
    · have hswap : (compareTexts t s).swap = compareTexts s t := swap_compareBytes _ _
      rw [compareTexts_of_precedes hgt] at hswap
      exact .inr (.inr ⟨hgt, hswap.symm⟩)
    · rw [precedes_iff_lt, String.not_lt] at hlt hgt
      obtain rfl : s = t := String.le_antisymm hgt hlt
      exact .inr (.inl ⟨rfl, compareBytes_self _⟩)

/-! ### Values that have an order -/

variable {l m r : Value}

/-- Both values are integers, or both are texts. -/
inductive Comparable : Value → Value → Prop
  | integers (m n : Int64) : Comparable (integer m) (integer n)
  | texts (s t : String) : Comparable (text s) (text t)

/-- The order of integers as numbers and of texts by code points. -/
def Before : Value → Value → Prop
  | integer m, integer n => m.toInt < n.toInt
  | text s, text t => Precedes s t
  | _, _ => False

theorem Comparable.symm (h : Comparable l r) : Comparable r l := by
  cases h with
  | integers m n => exact .integers n m
  | texts s t => exact .texts t s

theorem Comparable.trans (hl : Comparable l m) (hr : Comparable m r) : Comparable l r := by
  cases hl with
  | integers i j =>
    cases hr with
    | integers _ k => exact .integers i k
  | texts s t =>
    cases hr with
    | texts _ u => exact .texts s u

theorem Before.trans (hl : Before l m) (hr : Before m r) : Before l r := by
  cases l with
  | integer i =>
    cases m with
    | integer j =>
      cases r with
      | integer k => exact Int.lt_trans hl hr
      | float _ | text _ | null => exact hr.elim
    | float _ | text _ | null => exact hl.elim
  | text s =>
    cases m with
    | text t =>
      cases r with
      | text u =>
        exact precedes_iff_lt.mpr (String.lt_trans (precedes_iff_lt.mp hl) (precedes_iff_lt.mp hr))
      | integer _ | float _ | null => exact hr.elim
    | integer _ | float _ | null => exact hl.elim
  | float _ | null => exact hl.elim

theorem not_before_self (v : Value) : ¬ Before v v := by
  intro h
  cases v with
  | integer n => exact Int.lt_irrefl _ h
  | text s => exact String.lt_irrefl s (precedes_iff_lt.mp h)
  | float _ | null => exact h

theorem compare_cases (h : Comparable l r) :
    Before l r ∧ compare l r = .ordered .lt ∨
    l = r ∧ compare l r = .ordered .eq ∨
    Before r l ∧ compare l r = .ordered .gt := by
  cases h with
  | integers m n =>
    have hcases := compareIntegers_cases m n
    simpa [Before, compare, Int64.toInt_inj] using hcases
  | texts s t =>
    have hcases := compareTexts_cases s t
    simpa [Before, compare] using hcases

theorem equal_iff (h : Comparable l r) : l.equal r = true ↔ l = r := by
  cases h with
  | integers m n =>
    show decide (m = n) = true ↔ integer m = integer n
    rw [decide_eq_true_iff, integer.injEq]
  | texts s t =>
    show decide (s = t) = true ↔ text s = text t
    rw [decide_eq_true_iff, text.injEq]

/-- An order of two values and what it stands for. -/
structure IsOrder (l r : Value) (o : Ordering) : Prop where
  lt : o = .lt ↔ Before l r
  eq : o = .eq ↔ l = r
  gt : o = .gt ↔ Before r l

/-- Integers and texts have one order, and it is the one that comparing them finds. -/
theorem exists_isOrder (h : Comparable l r) : ∃ o, compare l r = .ordered o ∧ IsOrder l r o := by
  have hirrefl := not_before_self
  rcases compare_cases h with ⟨hlt, hc⟩ | ⟨rfl, hc⟩ | ⟨hgt, hc⟩
  · refine ⟨.lt, hc, ⟨by simp [hlt], ?_, ?_⟩⟩
    · simp only [reduceCtorEq, false_iff]
      rintro rfl
      exact hirrefl _ hlt
    · simp only [reduceCtorEq, false_iff]
      exact fun hgt => hirrefl _ (hlt.trans hgt)
  · exact ⟨.eq, hc, by simp [hirrefl], by simp, by simp [hirrefl]⟩
  · refine ⟨.gt, hc, ⟨?_, ?_, by simp [hgt]⟩⟩
    · simp only [reduceCtorEq, false_iff]
      exact fun hlt => hirrefl _ (hlt.trans hgt)
    · simp only [reduceCtorEq, false_iff]
      rintro rfl
      exact hirrefl _ hgt

/-! ### Values that have none -/

/-- One value is null, or one is a text and the other is not. -/
inductive Unordered : Value → Value → Prop
  | nullLeft (v : Value) : Unordered null v
  | nullRight (v : Value) : Unordered v null
  | textLeft (s : String) {v : Value} (h : ∀ t, v ≠ text t) : Unordered (text s) v
  | textRight (s : String) {v : Value} (h : ∀ t, v ≠ text t) : Unordered v (text s)

theorem compare_of_unordered (h : Unordered l r) : compare l r = .mismatched := by
  cases h with
  | nullLeft => cases r <;> rfl
  | nullRight => cases l <;> rfl
  | textLeft s h =>
    cases r with
    | text t => exact absurd rfl (h t)
    | integer _ | float _ | null => rfl
  | textRight s h =>
    cases l with
    | text t => exact absurd rfl (h t)
    | integer _ | float _ | null => rfl

theorem equal_of_unordered (h : Unordered l r) : l.equal r = true ↔ l = null ∧ r = null := by
  have hleft {v : Value} (hv : v ≠ null) : ¬ (v = null ∧ r = null) := fun h => hv h.1
  have hright {v : Value} (hv : v ≠ null) : ¬ (l = null ∧ v = null) := fun h => hv h.2
  cases h with
  | nullLeft =>
    cases r with
    | null => exact iff_of_true rfl ⟨rfl, rfl⟩
    | integer _ | float _ | text _ => exact iff_of_false Bool.false_ne_true (hright nofun)
  | nullRight =>
    cases l with
    | null => exact iff_of_true rfl ⟨rfl, rfl⟩
    | integer _ | float _ | text _ => exact iff_of_false Bool.false_ne_true (hleft nofun)
  | textLeft s h =>
    cases r with
    | text t => exact absurd rfl (h t)
    | integer _ | float _ | null => exact iff_of_false Bool.false_ne_true (hleft nofun)
  | textRight s h =>
    cases l with
    | text t => exact absurd rfl (h t)
    | integer _ | float _ | null => exact iff_of_false Bool.false_ne_true (hright nofun)

end Value

/-! ### Operations -/

namespace BinaryOp

open Value

variable {l m r : Value}

/-- The comparisons by order. -/
def orderings : List BinaryOp := [less, more, lessEqual, moreEqual]

/-- What a comparison asks of the order of two values. -/
def asks : BinaryOp → Ordering → Bool
  | less, o => o == .lt
  | more, o => o == .gt
  | lessEqual, o => o != .gt
  | moreEqual, o => o != .lt
  | _, o => o == .eq

/-- The operation gives the truth value one. -/
def Holds (op : BinaryOp) (l r : Value) : Prop := op.apply l r = .ok (integer 1)

theorem apply_of_order {op : BinaryOp} (hop : op ∈ equal :: orderings) (h : Comparable l r)
    {o : Ordering} (hc : compare l r = .ordered o) (ho : IsOrder l r o) :
    op.apply l r = .ok (ofBool (op.asks o)) := by
  have hordering (op : BinaryOp) (test : Ordering → Bool) :
      ordering op test l r = .ok (ofBool (test o)) := by
    simp only [ordering, hc]
  simp only [orderings, List.mem_cons, List.not_mem_nil, or_false] at hop
  rcases hop with rfl | rfl | rfl | rfl | rfl
  · have hequal : l.equal r = (o == .eq) := by
      rw [Bool.eq_iff_iff, equal_iff h, ← ho.eq, beq_iff_eq]
    simp only [apply, asks, hequal]
  all_goals exact hordering _ _

theorem ofBool_eq_one (b : Bool) :
    (.ok (ofBool b) : Except Mismatch Value) = .ok (integer 1) ↔ b = true := by
  cases b with
  | false => simp [ofBool]
  | true => simp [ofBool]

theorem holds_iff_asks {op : BinaryOp} (hop : op ∈ equal :: orderings) (h : Comparable l r)
    {o : Ordering} (hc : compare l r = .ordered o) (ho : IsOrder l r o) :
    op.Holds l r ↔ op.asks o = true := by
  rw [Holds, apply_of_order hop h hc ho, ofBool_eq_one]

/-- Turned around, the greater is the lesser. -/
theorem apply_more_eq (h : Comparable l r) : more.apply l r = less.apply r l := by
  obtain ⟨o, hc, ho⟩ := exists_isOrder h
  obtain ⟨o', hc', ho'⟩ := exists_isOrder h.symm
  have hturned : more.asks o = less.asks o' := by
    rw [Bool.eq_iff_iff]
    simp only [asks, beq_iff_eq]
    rw [ho.gt, ho'.lt]
  rw [apply_of_order (by decide) h hc ho, apply_of_order (by decide) h.symm hc' ho', hturned]

theorem holds_less_iff (h : Comparable l r) : less.Holds l r ↔ Before l r := by
  obtain ⟨o, hc, ho⟩ := exists_isOrder h
  rw [holds_iff_asks (by decide) h hc ho, ← ho.lt]
  exact beq_iff_eq

theorem holds_equal_iff (h : Comparable l r) : equal.Holds l r ↔ l = r := by
  obtain ⟨o, hc, ho⟩ := exists_isOrder h
  rw [holds_iff_asks (by decide) h hc ho, ← ho.eq]
  exact beq_iff_eq

/-- Of the three strict comparisons the one that fits the order holds, and no other. -/
theorem existsUnique_holds (h : Comparable l r) :
    ∃! op, op ∈ [less, equal, more] ∧ op.Holds l r := by
  obtain ⟨o, hc, ho⟩ := exists_isOrder h
  have hholds {op : BinaryOp} (hop : op ∈ equal :: orderings) := holds_iff_asks hop h hc ho
  have hcomparison {op : BinaryOp} (hop : op ∈ [less, equal, more]) : op ∈ equal :: orderings := by
    simp only [List.mem_cons, List.not_mem_nil, or_false] at hop
    rcases hop with rfl | rfl | rfl <;> decide
  have hunique {op : BinaryOp} (hop : op ∈ [less, equal, more]) (hasks : op.asks o = true)
      (honly : ∀ op' ∈ [less, equal, more], op'.asks o = true → op' = op) :
      ∃! op, op ∈ [less, equal, more] ∧ op.Holds l r := by
    refine ⟨op, ⟨hop, (hholds (hcomparison hop)).mpr hasks⟩, ?_⟩
    rintro op' ⟨hop', hholds'⟩
    exact honly op' hop' ((hholds (hcomparison hop')).mp hholds')
  cases o with
  | lt => exact hunique (show less ∈ [less, equal, more] by decide) rfl (by decide)
  | eq => exact hunique (show equal ∈ [less, equal, more] by decide) rfl (by decide)
  | gt => exact hunique (show more ∈ [less, equal, more] by decide) rfl (by decide)

/-- A comparison that asks for equality or a strict order holds if one of the two does. -/
theorem holds_iff_or_equal {op strict : BinaryOp} (hop : op ∈ orderings) (hstrict : strict ∈ orderings)
    (hasks : ∀ o, op.asks o = (strict.asks o || equal.asks o)) (h : Comparable l r) :
    op.Holds l r ↔ strict.Holds l r ∨ equal.Holds l r := by
  obtain ⟨o, hc, ho⟩ := exists_isOrder h
  rw [holds_iff_asks (List.mem_cons_of_mem _ hop) h hc ho,
    holds_iff_asks (List.mem_cons_of_mem _ hstrict) h hc ho,
    holds_iff_asks List.mem_cons_self h hc ho, hasks, Bool.or_eq_true]

theorem apply_of_unordered {op : BinaryOp} (hop : op ∈ orderings) (h : Unordered l r) :
    op.apply l r = .error ⟨op, l, r⟩ := by
  have hordering (op : BinaryOp) (test : Ordering → Bool) :
      ordering op test l r = .error ⟨op, l, r⟩ := by
    simp only [ordering, compare_of_unordered h]
  simp only [orderings, List.mem_cons, List.not_mem_nil, or_false] at hop
  rcases hop with rfl | rfl | rfl | rfl
  all_goals exact hordering _ _

/-- Equality can be asked of any two values. -/
theorem holds_equal_or (l r : Value) : equal.Holds l r ∨ equal.apply l r = .ok (integer 0) := by
  simp only [Holds, apply]
  cases l.equal r with
  | false => exact .inr rfl
  | true => exact .inl rfl

/-- **The comparisons are coherent.**  On two integers or two texts each of them gives one or zero, and
they agree on one order: just one of less, equal and more gives one, less or equal and more or equal
give what their parts give, more is less turned around, and less is the order of numbers or of code
points, so it is transitive.  Where one value is null, or one is a text and the other is not, the
comparisons by order fail for the types of the operands, and equality never does: it gives one for two
nulls only. -/
theorem comparisons_coherent (l m r : Value) :
    (Comparable l r →
      (∀ op ∈ equal :: orderings, op.Holds l r ∨ op.apply l r = .ok (integer 0)) ∧
      (∃! op, op ∈ [less, equal, more] ∧ op.Holds l r) ∧
      (lessEqual.Holds l r ↔ less.Holds l r ∨ equal.Holds l r) ∧
      (moreEqual.Holds l r ↔ more.Holds l r ∨ equal.Holds l r) ∧
      more.apply l r = less.apply r l ∧
      (less.Holds l r ↔ Before l r) ∧
      (equal.Holds l r ↔ l = r)) ∧
    (Comparable l m → Comparable m r → less.Holds l m → less.Holds m r → less.Holds l r) ∧
    (Unordered l r →
      (∀ op ∈ orderings, op.apply l r = .error ⟨op, l, r⟩ ∧
        Error.kind { cause := .mismatch ⟨op, l, r⟩ } = .typeMismatch) ∧
      (equal.Holds l r ∨ equal.apply l r = .ok (integer 0)) ∧
      (equal.Holds l r ↔ l = null ∧ r = null)) := by
  refine ⟨fun h => ⟨?_, existsUnique_holds h, ?_, ?_, apply_more_eq h, holds_less_iff h,
    holds_equal_iff h⟩, fun hlm hmr hless hless' => ?_, fun h => ⟨?_, holds_equal_or l r, ?_⟩⟩
  · intro op hop
    obtain ⟨o, hc, ho⟩ := exists_isOrder h
    rw [Holds, apply_of_order hop h hc ho]
    cases op.asks o with
    | false => exact .inr rfl
    | true => exact .inl rfl
  · exact holds_iff_or_equal (by decide) (by decide) (by rintro (_ | _ | _) <;> rfl) h
  · exact holds_iff_or_equal (by decide) (by decide) (by rintro (_ | _ | _) <;> rfl) h
  · rw [holds_less_iff hlm] at hless
    rw [holds_less_iff hmr] at hless'
    exact (holds_less_iff (hlm.trans hmr)).mpr (hless.trans hless')
  · exact fun op hop => ⟨apply_of_unordered hop h, rfl⟩
  · rw [← equal_of_unordered h]
    exact ofBool_eq_one _

/-- A character of three bytes before one of four, integers about zero, and null beside a text. -/
theorem comparisons_coherent_samples :
    less.Holds (text "ｚ") (text "😀") ∧ less.Holds (integer (-1)) (integer 1) ∧
    less.apply null (text "") = .error ⟨less, null, text ""⟩ ∧ ¬ equal.Holds null (text "") := by
  have htexts := (comparisons_coherent (text "ｚ") null (text "😀")).1 (.texts _ _)
  have hless := (comparisons_coherent (integer (-1)) (integer 0) (integer 1)).2.1
    (.integers _ _) (.integers _ _) rfl rfl
  have hnull := (comparisons_coherent null null (text "")).2.2 (.nullLeft _)
  refine ⟨htexts.2.2.2.2.2.1.mpr ?_, hless, (hnull.1 less (by decide)).1, fun h => ?_⟩
  · show Precedes "ｚ" "😀"
    exact .rel (by decide)
  · exact absurd (hnull.2.2.mp h).2 nofun

end BinaryOp

end Stackline
