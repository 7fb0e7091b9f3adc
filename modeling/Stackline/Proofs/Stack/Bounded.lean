import Stackline.Proofs.Stack

/-!
# Stacks as bounded lists

A stack keeps its entries with the newest first and knows how many there are.  To whoever calls it,
it is a list of at most `Stack.capacity` entries, the oldest first, on which every operation works at
the end.  `Call.onList` says what each call does to that list: each call does this to a stack
(`onList_toList`), and so does every sequence of calls (`onListAll_toList`).  On the stacks that such
sequences reach, the operations on many entries agree with those on one (`serveAll_lawful`).
-/

namespace Stackline.Stack

variable {α : Type}

/-! ### Calls -/

/-- What can be asked of a stack. -/
inductive Call (α : Type) where
  | push (a : α)
  | pushAll (l : List α)
  | pop
  | pop2
  | popMany (n : Nat)
  | peek (depth : Nat)
  | remove (depth : Nat)
  | top

/-- What a call returns. -/
inductive Reply (α : Type) where
  | done
  | one (a : α)
  | two (a b : α)
  | many (l : List α)
  | found (a : Option α)
  | failed (f : Fault)

/-- The call was refused, or there was nothing to find. -/
def Reply.isFailure : Reply α → Bool
  | found none | failed _ => true
  | _ => false

/-- The reply to an operation with a result, and the stack that the operation left. -/
def Reply.to {β : Type} (f : β → Reply α) : Result α β → Reply α × Stack α
  | .ok b s => (f b, s)
  | .error e s => (.failed e, s)

/-- What a stack replies to a call, and the stack afterwards. -/
def Call.serve : Call α → Stack α → Reply α × Stack α
  | .push a, s => Reply.to (fun _ => .done) (s.push a)
  | .pushAll l, s => Reply.to (fun _ => .done) (s.pushAll l)
  | .pop, s => Reply.to .one s.pop
  | .pop2, s => Reply.to (fun p => .two p.1 p.2) s.pop2
  | .popMany n, s => Reply.to .many (s.popMany n)
  | .peek depth, s => (.found (s.peek? depth), s)
  | .remove depth, s => (.found (s.remove? depth).1, (s.remove? depth).2)
  | .top, s => (.found s.top?, s)

/-- The replies to calls made one after another, and the stack after the last. -/
def serveAll : List (Call α) → Stack α → List (Reply α) × Stack α
  | [], s => ([], s)
  | c :: cs, s => ((c.serve s).1 :: (serveAll cs (c.serve s).2).1, (serveAll cs (c.serve s).2).2)

/-! ### Lists -/

/-- What a bounded list replies to a call, and the list afterwards.  The newest entry is the last, and
the entry at a depth is that many places before the end. -/
def Call.onList : Call α → List α → Reply α × List α
  | .push a, l => if l.length < capacity then (.done, l ++ [a]) else (.failed .full, l)
  | .pushAll k, l => if l.length + k.length ≤ capacity then (.done, l ++ k) else (.failed .full, l)
  | .pop, l =>
    match l.getLast? with
    | some a => (.one a, l.dropLast)
    | none => (.failed (.short 1 l.length), l)
  | .pop2, l =>
    match l.drop (l.length - 2) with
    | [a, b] => (.two a b, l.take (l.length - 2))
    | _ => (.failed (.short 2 l.length), l)
  | .popMany n, l =>
    if n ≤ l.length then (.many (l.drop (l.length - n)), l.take (l.length - n))
    else (.failed (.short n l.length), l)
  | .peek depth, l =>
    if 1 ≤ depth ∧ depth ≤ l.length then (.found l[l.length - depth]?, l) else (.found none, l)
  | .remove depth, l =>
    if 1 ≤ depth ∧ depth ≤ l.length then
      (.found l[l.length - depth]?, l.eraseIdx (l.length - depth))
    else (.found none, l)
  | .top, l => (.found l.getLast?, l)

/-- The replies of a bounded list to calls made one after another. -/
def onListAll : List (Call α) → List α → List (Reply α) × List α
  | [], l => ([], l)
  | c :: cs, l => ((c.onList l).1 :: (onListAll cs (c.onList l).2).1, (onListAll cs (c.onList l).2).2)

variable {s t : Stack α} {n : Nat}

/-! ### Depths -/

/-- The place of a depth in the list of entries. -/
theorem getElem?_reverse_sub {l : List α} (hn : 1 ≤ n) (hle : n ≤ l.length) :
    l.reverse[l.length - n]? = l[n - 1]? := by
  rw [List.getElem?_reverse (by omega)]
  congr 1
  omega

theorem eraseIdx_reverse_sub {l : List α} (hn : 1 ≤ n) (hle : n ≤ l.length) :
    l.reverse.eraseIdx (l.length - n) = (l.eraseIdx (n - 1)).reverse := by
  rw [List.eraseIdx_eq_take_drop_succ, List.eraseIdx_eq_take_drop_succ, List.take_reverse,
    List.drop_reverse, List.reverse_append]
  congr 3 <;> omega

/-! ### Refinement -/

/-- **One call.** -/
theorem onList_toList (c : Call α) (s : Stack α) :
    c.onList s.toList = ((c.serve s).1, (c.serve s).2.toList) := by
  obtain ⟨l, rfl⟩ : ∃ l, s = ofEntries l := ⟨s.entries, eq_ofEntries rfl⟩
  cases c with
  | push a =>
    by_cases h : l.length < capacity
    · have hpush : (ofEntries l).push a = .ok () (ofEntries (a :: l)) := push_of_lt a h
      simp [Call.serve, Call.onList, hpush, h, Reply.to]
    · have hpush : (ofEntries l).push a = .error .full (ofEntries l) :=
        push_of_full a (Nat.not_lt.mp h)
      simp [Call.serve, Call.onList, hpush, h, Reply.to]
  | pushAll k =>
    by_cases h : l.length + k.length ≤ capacity
    · have hpush : (ofEntries l).pushAll k = .ok () (ofEntries (k.reverse ++ l)) := pushAll_of_le h
      simp [Call.serve, Call.onList, hpush, h, Reply.to]
    · have hpush : (ofEntries l).pushAll k = .error .full (ofEntries l) :=
        pushAll_of_full (Nat.not_le.mp h)
      simp [Call.serve, Call.onList, hpush, h, Reply.to]
  | pop =>
    cases l with
    | nil => rfl
    | cons a l =>
      have hpop : (ofEntries (a :: l)).pop = .ok a (ofEntries l) := rfl
      simp [Call.serve, Call.onList, hpop, Reply.to]
  | pop2 =>
    match l with
    | [] => rfl
    | [_] => rfl
    | b :: a :: l =>
      have hpop : (ofEntries (b :: a :: l)).pop2 = .ok (a, b) (ofEntries l) := rfl
      simp [Call.serve, Call.onList, hpop, Reply.to]
  | popMany n =>
    by_cases h : n ≤ l.length
    · have hpop : (ofEntries l).popMany n = .ok (l.take n).reverse (ofEntries (l.drop n)) :=
        popMany_of_le h
      have hdepth : l.length - (l.length - n) = n := by omega
      simp [Call.serve, Call.onList, hpop, h, Reply.to, List.drop_reverse, List.take_reverse,
        hdepth]
    · have hpop : (ofEntries l).popMany n = .error (.short n l.length) (ofEntries l) :=
        popMany_of_lt (Nat.not_le.mp h)
      simp [Call.serve, Call.onList, hpop, h, Reply.to]
  | peek n =>
    by_cases h : 1 ≤ n ∧ n ≤ l.length
    · have hpeek : (ofEntries l).peek? n = l[n - 1]? := if_neg (by omega)
      simp [Call.serve, Call.onList, hpeek, h, getElem?_reverse_sub h.1 h.2]
    · have hpeek : (ofEntries l).peek? n = none := peek?_eq_none h
      simp [Call.serve, Call.onList, hpeek, h]
  | remove n =>
    by_cases h : 1 ≤ n ∧ n ≤ l.length
    · have hentry : l[n - 1]? = some l[n - 1] := List.getElem?_eq_getElem (by omega)
      have hremove : (ofEntries l).remove? n = (some l[n - 1], ofEntries (l.eraseIdx (n - 1))) :=
        remove?_of_getElem? h.1 hentry
      simp [Call.serve, Call.onList, hremove, h, getElem?_reverse_sub h.1 h.2, hentry,
        eraseIdx_reverse_sub h.1 h.2]
    · have hremove : (ofEntries l).remove? n = (none, ofEntries l) := remove?_eq_none h
      simp [Call.serve, Call.onList, hremove, h]
  | top => simp [Call.serve, Call.onList, top?]

theorem onListAll_toList (cs : List (Call α)) (s : Stack α) :
    onListAll cs s.toList = ((serveAll cs s).1, (serveAll cs s).2.toList) := by
  induction cs generalizing s with
  | nil => rfl
  | cons c cs ih => simp only [onListAll, serveAll, onList_toList, ih]

/-! ### The bound -/

theorem length_onList_le {l : List α} (c : Call α) (h : l.length ≤ capacity) :
    (c.onList l).2.length ≤ capacity := by
  cases c with
  | push a | pushAll k | pop | pop2 | popMany n | peek n | remove n | top =>
    unfold Call.onList
    grind

theorem length_onListAll_le {l : List α} (cs : List (Call α)) (h : l.length ≤ capacity) :
    (onListAll cs l).2.length ≤ capacity := by
  induction cs generalizing l with
  | nil => exact h
  | cons c cs ih => exact ih (length_onList_le c h)

theorem size_serveAll_le (cs : List (Call α)) : (serveAll cs empty).2.size ≤ capacity := by
  have hlist := length_onListAll_le (l := (empty : Stack α).toList) cs (Nat.zero_le _)
  rwa [onListAll_toList, length_toList] at hlist

/-! ### Failures -/

/-- An operation fails only with the stack that it was given. -/
def Spares {β : Type} (s : Stack α) (r : Result α β) : Prop := ∀ f t, r = .error f t → t = s

theorem spares_push (s : Stack α) (a : α) : s.Spares (s.push a) := by
  intro f t h
  unfold push at h
  split at h
  · cases h
  · exact (EStateM.Result.error.inj h).2.symm

theorem spares_pushAll (s : Stack α) (l : List α) : s.Spares (s.pushAll l) := by
  intro f t h
  unfold pushAll at h
  split at h
  · cases h
  · exact (EStateM.Result.error.inj h).2.symm

theorem spares_pop (s : Stack α) : s.Spares s.pop := by
  intro f t h
  cases hl : s.entries with
  | nil =>
    rw [pop_of_nil hl] at h
    exact (EStateM.Result.error.inj h).2.symm
  | cons a l =>
    rw [pop_of_cons hl] at h
    cases h

theorem spares_popMany (s : Stack α) (n : Nat) : s.Spares (s.popMany n) := by
  intro f t h
  unfold popMany at h
  split at h
  · cases h
  · exact (EStateM.Result.error.inj h).2.symm

/-- The first of the two pops succeeds only if the second will. -/
theorem spares_pop2 (s : Stack α) : s.Spares s.pop2 := by
  intro f t h
  by_cases hsize : s.size < 2
  · rw [pop2_of_lt hsize] at h
    exact (EStateM.Result.error.inj h).2.symm
  · obtain ⟨b, a, l, hl⟩ := exists_cons₂_of_size (Nat.not_lt.mp hsize)
    rw [pop2_of_cons hl] at h
    cases h

theorem Spares.of_isFailure {β : Type} {r : Result α β} {f : β → Reply α} (hr : s.Spares r)
    (hf : ∀ b, (f b).isFailure = false) (h : (Reply.to f r).1.isFailure = true) :
    (Reply.to f r).2 = s := by
  cases r with
  | ok b t => exact absurd ((hf b).symm.trans h) Bool.false_ne_true
  | error e t => exact hr e t rfl

/-- A call that fails changes nothing. -/
theorem serve_of_isFailure {c : Call α} (h : (c.serve s).1.isFailure = true) : (c.serve s).2 = s := by
  cases c with
  | push a => exact (spares_push s a).of_isFailure (fun _ => rfl) h
  | pushAll l => exact (spares_pushAll s l).of_isFailure (fun _ => rfl) h
  | pop => exact (spares_pop s).of_isFailure (fun _ => rfl) h
  | pop2 => exact (spares_pop2 s).of_isFailure (fun _ => rfl) h
  | popMany n => exact (spares_popMany s n).of_isFailure (fun _ => rfl) h
  | peek n | top => rfl
  | remove n =>
    by_cases hn : 1 ≤ n ∧ n ≤ s.entries.length
    · have hentry : s.entries[n - 1]? = some s.entries[n - 1] :=
        List.getElem?_eq_getElem (by omega)
      simp [Call.serve, remove?_of_getElem? hn.1 hentry, Reply.isFailure] at h
    · simp [Call.serve, remove?_eq_none hn]

/-! ### Operations on many entries -/

/-- Push entries one after another. -/
def pushEach : List α → Stack α → Result α Unit
  | [], s => .ok () s
  | a :: l, s =>
    match s.push a with
    | .ok () s => pushEach l s
    | .error f s => .error f s

/-- Pop so many times in a row. -/
def popEach : Nat → Stack α → Result α (List α)
  | 0, s => .ok [] s
  | n + 1, s =>
    match s.pop with
    | .error f s => .error f s
    | .ok a s =>
      match popEach n s with
      | .ok l s => .ok (a :: l) s
      | .error f s => .error f s

theorem pushEach_of_le {l : List α} (h : s.size + l.length ≤ capacity) :
    pushEach l s = .ok () (ofEntries (l.reverse ++ s.entries)) := by
  induction l generalizing s with
  | nil => exact congrArg (EStateM.Result.ok ()) (ext rfl)
  | cons a l ih =>
    rw [List.length_cons] at h
    rw [pushEach, push_of_lt a (by omega)]
    show pushEach l _ = _
    rw [ih (by simp [s.size_eq]; omega)]
    simp

theorem pushEach_of_full {l : List α} (hs : s.size ≤ capacity) (h : capacity < s.size + l.length) :
    ∃ t, pushEach l s = .error .full t := by
  induction l generalizing s with
  | nil => exact absurd h (by simpa using hs)
  | cons a l ih =>
    rw [List.length_cons] at h
    rw [pushEach]
    by_cases hroom : s.size < capacity
    · have hsize : (ofEntries (a :: s.entries)).size = s.size + 1 := by simp [s.size_eq]
      rw [push_of_lt a hroom]
      exact ih (by omega) (by omega)
    · rw [push_of_full a (by omega)]
      exact ⟨s, rfl⟩

/-- Entries are pushed together as they are one after another, where there is room for those that are
there already. -/
theorem pushAll_eq_ok_iff {l : List α} (hs : s.size ≤ capacity) :
    s.pushAll l = .ok () t ↔ pushEach l s = .ok () t := by
  by_cases h : s.size + l.length ≤ capacity
  · rw [pushAll_of_le h, pushEach_of_le h]
  · obtain ⟨u, hu⟩ := pushEach_of_full hs (Nat.not_le.mp h)
    rw [pushAll_of_full (Nat.not_le.mp h), hu]
    simp

/-- They are refused together if one of them would be. -/
theorem pushAll_eq_error_iff {l : List α} {f : Fault} (hs : s.size ≤ capacity) :
    s.pushAll l = .error f s ↔ ∃ u, pushEach l s = .error f u := by
  by_cases h : s.size + l.length ≤ capacity
  · rw [pushAll_of_le h, pushEach_of_le h]
    simp
  · obtain ⟨u, hu⟩ := pushEach_of_full hs (Nat.not_le.mp h)
    rw [pushAll_of_full (Nat.not_le.mp h), hu]
    simp

theorem popEach_of_le (h : n ≤ s.size) :
    popEach n s = .ok (s.entries.take n) (ofEntries (s.entries.drop n)) := by
  induction n generalizing s with
  | zero => exact congrArg (EStateM.Result.ok []) (ext rfl)
  | succ n ih =>
    obtain ⟨a, l, hl⟩ := exists_cons_of_size (by omega : 1 ≤ s.size)
    have hlen := s.size_eq
    rw [hl, List.length_cons] at hlen
    have hrest := ih (s := ofEntries l) (by rw [size_ofEntries]; omega)
    simp only [popEach, pop_of_cons hl, hrest, hl]
    rfl

theorem popEach_of_lt (h : s.size < n) : ∃ f t, popEach n s = .error f t := by
  induction n generalizing s with
  | zero => omega
  | succ n ih =>
    rw [popEach]
    cases hl : s.entries with
    | nil => exact ⟨_, _, by rw [pop_of_nil hl]⟩
    | cons a l =>
      have hlen := s.size_eq
      rw [hl, List.length_cons] at hlen
      obtain ⟨f, t, hf⟩ := ih (s := ofEntries l) (by rw [size_ofEntries]; omega)
      exact ⟨f, t, by simp only [pop_of_cons hl, hf]⟩

/-- Entries are popped together as they are one after another, and come in the order in which they
were pushed. -/
theorem popMany_eq_ok_iff {l : List α} :
    s.popMany n = .ok l.reverse t ↔ popEach n s = .ok l t := by
  by_cases h : n ≤ s.size
  · rw [popMany_of_le h, popEach_of_le h]
    simp
  · obtain ⟨f, u, hf⟩ := popEach_of_lt (Nat.not_le.mp h)
    rw [popMany_of_lt (Nat.not_le.mp h), hf]
    simp

theorem popMany_two_eq (s : Stack α) : s.popMany 2 = EStateM.map (fun p => [p.1, p.2]) pop2 s := by
  unfold EStateM.map
  by_cases h : 2 ≤ s.size
  · obtain ⟨b, a, l, hl⟩ := exists_cons₂_of_size h
    rw [popMany_of_le h, pop2_of_cons hl, hl]
    rfl
  · rw [popMany_of_lt (Nat.not_le.mp h), pop2_of_lt (Nat.not_le.mp h)]

/-- What was pushed can be popped, and the stack is as before. -/
theorem popMany_of_pushAll {l : List α} (h : s.pushAll l = .ok () t) :
    t.popMany l.length = .ok l s := by
  by_cases hfit : s.size + l.length ≤ capacity
  · rw [pushAll_of_le hfit] at h
    cases h
    rw [popMany_of_le (by simp)]
    have hs : ofEntries s.entries = s := (eq_ofEntries rfl).symm
    simp [hs]
  · rw [pushAll_of_full (by omega)] at h
    cases h

/-! ### Removing -/

theorem fst_remove? (s : Stack α) (n : Nat) : (s.remove? n).1 = s.peek? n := by
  by_cases h : 1 ≤ n ∧ n ≤ s.entries.length
  · have hentry : s.entries[n - 1]? = some s.entries[n - 1] := List.getElem?_eq_getElem (by omega)
    rw [remove?_of_getElem? h.1 hentry, peek?_of_getElem? h.1 hentry]
  · rw [remove?_eq_none h, peek?_eq_none h]

/-- An entry is taken out as if it and those above it were popped and those above it pushed again. -/
theorem remove?_of_le (hs : s.size ≤ capacity) (hn : 1 ≤ n) (hle : n ≤ s.size) :
    ∃ a l u t, s.popMany n = .ok (a :: l) u ∧ u.pushAll l = .ok () t ∧ s.remove? n = (some a, t) := by
  have hlen := s.size_eq
  have hentry : s.entries[n - 1]? = some s.entries[n - 1] := List.getElem?_eq_getElem (by omega)
  have htaken : (s.entries.take n).reverse = s.entries[n - 1] :: (s.entries.take (n - 1)).reverse := by
    obtain ⟨k, rfl⟩ : ∃ k, n = k + 1 := ⟨n - 1, by omega⟩
    rw [List.take_succ_eq_append_getElem (by omega), List.reverse_append]
    rfl
  have hback : (ofEntries (s.entries.drop n)).pushAll (s.entries.take (n - 1)).reverse =
      .ok () (ofEntries (s.entries.eraseIdx (n - 1))) := by
    rw [pushAll_of_le (by simp; omega), List.eraseIdx_eq_take_drop_succ, Nat.sub_add_cancel hn]
    simp
  refine ⟨_, _, _, _, ?_, hback, remove?_of_getElem? hn hentry⟩
  rw [popMany_of_le hle, htaken]

/-! ### Sequences of calls -/

/-- What holds of a stack whatever was asked of it before. -/
structure Lawful (s : Stack α) : Prop where
  size_le : s.size ≤ capacity
  unchanged : ∀ c : Call α, (c.serve s).1.isFailure = true → (c.serve s).2 = s
  /-- Pushing entries together and one after another is the same, if there is room for all. -/
  pushAll_iff : ∀ l t, s.pushAll l = .ok () t ↔ pushEach l s = .ok () t
  /-- If there is not, none is pushed. -/
  pushAll_error_iff : ∀ l f, s.pushAll l = .error f s ↔ ∃ u, pushEach l s = .error f u
  /-- Popping entries together and one after another is the same, up to their order. -/
  popMany_iff : ∀ n l t, s.popMany n = .ok l.reverse t ↔ popEach n s = .ok l t
  popMany_two : s.popMany 2 = EStateM.map (fun p => [p.1, p.2]) pop2 s
  popMany_pushAll : ∀ l t, s.pushAll l = .ok () t → t.popMany l.length = .ok l s
  remove_eq_peek : ∀ n, (s.remove? n).1 = s.peek? n
  /-- Removing an entry, and popping it with those above it and pushing these again, is the same. -/
  remove_eq : ∀ n, 1 ≤ n → n ≤ s.size →
    ∃ a l u t, s.popMany n = .ok (a :: l) u ∧ u.pushAll l = .ok () t ∧ s.remove? n = (some a, t)

/-- **A stack is a bounded list.**  Whatever sequence of calls is made on a new stack, it replies as
the list of at most `capacity` entries does and holds what the list holds.  There are never more
entries than that, a call that fails changes nothing, and the operations on many entries and at a
depth do what pushing and popping one entry after another does. -/
theorem serveAll_lawful (cs : List (Call α)) :
    onListAll cs [] = ((serveAll cs empty).1, (serveAll cs empty).2.toList) ∧
    (serveAll cs empty).2.toList.length ≤ capacity ∧ (serveAll cs empty).2.Lawful := by
  have hsize := size_serveAll_le cs
  refine ⟨onListAll_toList cs empty, by rwa [length_toList], ?_⟩
  exact {
    size_le := hsize
    unchanged := fun c => serve_of_isFailure
    pushAll_iff := fun l t => pushAll_eq_ok_iff hsize
    pushAll_error_iff := fun l f => pushAll_eq_error_iff hsize
    popMany_iff := fun n l t => popMany_eq_ok_iff
    popMany_two := popMany_two_eq _
    popMany_pushAll := fun l t => popMany_of_pushAll
    remove_eq_peek := fst_remove? _
    remove_eq := fun n => remove?_of_le hsize }

end Stackline.Stack
