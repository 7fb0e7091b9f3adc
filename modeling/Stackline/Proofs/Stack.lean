import Stackline.Stack

/-!
# Stacks by their entries

What each operation on a stack does to the list of its entries.  A stack is determined by them
(`Stack.ext`), so every result is written as `Stack.ofEntries` of a list.
-/

namespace Stackline.Stack

variable {α : Type}

@[simp] theorem entries_ofEntries (l : List α) : (ofEntries l).entries = l := rfl

@[simp] theorem size_ofEntries (l : List α) : (ofEntries l).size = l.length := rfl

@[simp] theorem length_toList (s : Stack α) : s.toList.length = s.size := by
  rw [toList, List.length_reverse, s.size_eq]

@[simp] theorem toList_ofEntries (l : List α) : (ofEntries l).toList = l.reverse := rfl

theorem eq_ofEntries {s : Stack α} {l : List α} (h : s.entries = l) : s = ofEntries l :=
  ext h

theorem exists_cons_of_size {s : Stack α} (h : 1 ≤ s.size) : ∃ a l, s.entries = a :: l := by
  have hlen := s.size_eq
  cases hs : s.entries with
  | nil => rw [hs] at hlen; simp at hlen; omega
  | cons a l => exact ⟨a, l, rfl⟩

theorem exists_cons₂_of_size {s : Stack α} (h : 2 ≤ s.size) : ∃ b a l, s.entries = b :: a :: l := by
  obtain ⟨b, l, hl⟩ := exists_cons_of_size (by omega : 1 ≤ s.size)
  have hlen := s.size_eq
  rw [hl, List.length_cons] at hlen
  obtain ⟨a, l, rfl⟩ := List.exists_cons_of_length_pos (by omega : 0 < l.length)
  exact ⟨b, a, l, hl⟩

theorem exists_cons₃_of_size {s : Stack α} (h : 3 ≤ s.size) :
    ∃ c b a l, s.entries = c :: b :: a :: l := by
  obtain ⟨c, b, l, hl⟩ := exists_cons₂_of_size (by omega : 2 ≤ s.size)
  have hlen := s.size_eq
  rw [hl, List.length_cons, List.length_cons] at hlen
  obtain ⟨a, l, rfl⟩ := List.exists_cons_of_length_pos (by omega : 0 < l.length)
  exact ⟨c, b, a, l, hl⟩

theorem push_of_lt {s : Stack α} (a : α) (h : s.size < capacity) :
    s.push a = .ok () (ofEntries (a :: s.entries)) := by
  unfold push
  rw [if_pos h]
  exact congrArg _ (ext rfl)

theorem push_of_full {s : Stack α} (a : α) (h : capacity ≤ s.size) :
    s.push a = .error .full s := by
  unfold push
  rw [if_neg (by omega)]

theorem pushAll_of_le {s : Stack α} {l : List α} (h : s.size + l.length ≤ capacity) :
    s.pushAll l = .ok () (ofEntries (l.reverse ++ s.entries)) := by
  unfold pushAll
  rw [if_pos h]
  exact congrArg _ (ext rfl)

theorem pushAll_of_full {s : Stack α} {l : List α} (h : capacity < s.size + l.length) :
    s.pushAll l = .error .full s := by
  unfold pushAll
  rw [if_neg (by omega)]

theorem pop_of_cons {s : Stack α} {a : α} {l : List α} (h : s.entries = a :: l) :
    s.pop = .ok a (ofEntries l) := by
  obtain rfl := eq_ofEntries h
  rfl

theorem pop_of_nil {s : Stack α} (h : s.entries = []) : s.pop = .error (.short 1 0) s := by
  obtain rfl := eq_ofEntries h
  rfl

theorem pop2_of_cons {s : Stack α} {a b : α} {l : List α} (h : s.entries = b :: a :: l) :
    s.pop2 = .ok (a, b) (ofEntries l) := by
  obtain rfl := eq_ofEntries h
  rfl

theorem pop2_of_lt {s : Stack α} (h : s.size < 2) : s.pop2 = .error (.short 2 s.size) s := by
  unfold pop2
  rw [if_pos h]

theorem popMany_of_le {s : Stack α} {n : Nat} (h : n ≤ s.size) :
    s.popMany n = .ok (s.entries.take n).reverse (ofEntries (s.entries.drop n)) := by
  unfold popMany
  rw [if_pos h]
  exact congrArg _ (ext rfl)

theorem popMany_of_lt {s : Stack α} {n : Nat} (h : s.size < n) :
    s.popMany n = .error (.short n s.size) s := by
  unfold popMany
  rw [if_neg (by omega)]

theorem peek?_of_getElem? {s : Stack α} {n : Nat} {a : α} (hn : 1 ≤ n)
    (h : s.entries[n - 1]? = some a) : s.peek? n = some a := by
  unfold peek?
  rw [if_neg (by omega), h]

/-- A depth beyond the entries, or none. -/
theorem peek?_eq_none {s : Stack α} {n : Nat} (h : ¬ (1 ≤ n ∧ n ≤ s.entries.length)) :
    s.peek? n = none := by
  unfold peek?
  split
  · rfl
  · exact List.getElem?_eq_none (by omega)

theorem remove?_of_getElem? {s : Stack α} {n : Nat} {a : α} (hn : 1 ≤ n)
    (h : s.entries[n - 1]? = some a) :
    s.remove? n = (some a, ofEntries (s.entries.eraseIdx (n - 1))) := by
  unfold remove?
  rw [if_neg (by omega)]
  split
  · next hnone =>
    rw [h] at hnone
    cases hnone
  · next b hb =>
    obtain rfl : a = b := Option.some.inj (h.symm.trans hb)
    exact congrArg (some a, ·) (ext rfl)

theorem remove?_eq_none {s : Stack α} {n : Nat} (h : ¬ (1 ≤ n ∧ n ≤ s.entries.length)) :
    s.remove? n = (none, s) := by
  unfold remove?
  split
  · rfl
  · have hnone : s.entries[n - 1]? = none := List.getElem?_eq_none (by omega)
    split
    · rfl
    · next hb =>
      rw [hnone] at hb
      cases hb

/-- Taking an entry out leaves no more entries than there were. -/
theorem size_remove?_le (s : Stack α) (n : Nat) : (s.remove? n).2.size ≤ s.size := by
  unfold remove?
  split
  · exact Nat.le_refl _
  · split
    · exact Nat.le_refl _
    · exact Nat.sub_le _ _

end Stackline.Stack
