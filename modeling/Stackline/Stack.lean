/-!
# Bounded stacks

A stack holds at most `Stack.capacity` entries. Depths count from the top: depth 1 is the entry
pushed last. An operation gives a result or fails, and in either case there is a stack to go on
with.
-/

namespace Stackline

/-- Entries, the newest first, with their number at hand. -/
structure Stack (α : Type) where
  entries : List α
  size : Nat
  size_eq : entries.length = size

namespace Stack

variable {α : Type}

/-- Why an operation on a stack failed. -/
inductive Fault where
  /-- There is no room. -/
  | full
  /-- There are too few entries. -/
  | short (expected actual : Nat)
  deriving DecidableEq, Repr

/-- The most entries that a stack holds. -/
def capacity : Nat := 65535

/-- A stack is determined by its entries. -/
theorem ext {s t : Stack α} (h : s.entries = t.entries) : s = t := by
  obtain ⟨_, _, hs⟩ := s
  obtain ⟨_, _, ht⟩ := t
  simp only at h
  subst h hs ht
  rfl

/-- The stack of some entries, the newest first. -/
def ofEntries (l : List α) : Stack α := ⟨l, l.length, rfl⟩

/-- The stack without entries. -/
def empty : Stack α := ⟨[], 0, rfl⟩

instance : Inhabited (Stack α) := ⟨empty⟩

/-- The entries, the oldest first. -/
def toList (s : Stack α) : List α := s.entries.reverse

/-- Whether there are no entries. -/
def isEmpty (s : Stack α) : Bool := s.size = 0

/-- The newest entry. -/
def top? (s : Stack α) : Option α := s.entries.head?

/-- The entry at a depth. -/
def peek? (s : Stack α) (depth : Nat) : Option α :=
  if depth = 0 then none else s.entries[depth - 1]?

/-- The result of an operation on a stack, or why it failed, and the stack afterwards. -/
abbrev Result (α β : Type) := EStateM.Result Fault (Stack α) β

/-- Put a new entry on top. -/
def push (s : Stack α) (a : α) : Result α Unit :=
  if s.size < capacity then
    .ok () ⟨a :: s.entries, s.size + 1, by simp [s.size_eq]⟩
  else .error .full s

/-- Put entries on top, the last of them topmost, or none if they do not all fit. -/
def pushAll (s : Stack α) (l : List α) : Result α Unit :=
  if s.size + l.length ≤ capacity then
    .ok () ⟨l.reverse ++ s.entries, s.size + l.length, by simp [s.size_eq, Nat.add_comm]⟩
  else .error .full s

/-- Take off the newest entry. -/
def pop (s : Stack α) : Result α α :=
  match s with
  | ⟨[], n, h⟩ => .error (.short 1 n) ⟨[], n, h⟩
  | ⟨a :: rest, n, h⟩ => .ok a ⟨rest, n - 1, by simp at h; omega⟩

/-- Take off the two newest entries, the older one first. -/
def pop2 (s : Stack α) : Result α (α × α) :=
  if s.size < 2 then .error (.short 2 s.size) s
  else
    match s.pop with
    | .error f s => .error f s
    | .ok b s =>
      match s.pop with
      | .error f s => .error f s
      | .ok a s => .ok (a, b) s

/-- Take off the `n` newest entries, the oldest of them first. -/
def popMany (s : Stack α) (n : Nat) : Result α (List α) :=
  if n ≤ s.size then
    .ok (s.entries.take n).reverse ⟨s.entries.drop n, s.size - n, by simp [s.size_eq]⟩
  else .error (.short n s.size) s

/-- Take out the entry at a depth, if there is one. Those above it move down. -/
def remove? (s : Stack α) (depth : Nat) : Option α × Stack α :=
  if depth = 0 then (none, s)
  else
    match h : s.entries[depth - 1]? with
    | none => (none, s)
    | some a =>
      (some a, ⟨s.entries.eraseIdx (depth - 1), s.size - 1, by
        obtain ⟨hlt, _⟩ := List.getElem?_eq_some_iff.mp h
        rw [List.length_eraseIdx, if_pos hlt, s.size_eq]⟩)

end Stack

end Stackline
