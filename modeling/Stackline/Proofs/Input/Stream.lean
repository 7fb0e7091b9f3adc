import Stackline.Input.Basic
import Stackline.Proofs.Input.Source

/-!
# Input as a list of characters

Input keeps the characters given back apart from the host, but what can be asked of it is answered as
by one list of characters: those given back, the latest first, and then those that the host delivers.
`i.Holds l` says that `l` is that list.  Each request does to `i` what `Request.onList` does to `l`
(`serve_refines`), and so does every sequence of requests (`serveAll_refines`).
-/

namespace Stackline.Input

variable {i j : Input} {l : List Char} {g : List Char}

/-! ### Requests -/

/-- What can be asked of input. -/
inductive Request where
  | char
  | unread (c : Char)
  | line
  | word

/-- What a request is answered. -/
inductive Answer where
  | done
  | char (c : Option Char)
  | text (s : Option String)
  deriving DecidableEq

/-- What input answers to a request, and the input afterwards. -/
def Request.serve : Request → Input → Except Failure Answer × Input
  | .char, i => (i.readChar.1.map .char, i.readChar.2)
  | .unread c, i => (.ok .done, i.unread c)
  | .line, i => (i.readLine.1.map .text, i.readLine.2)
  | .word, i => (i.readWord.1.map .text, i.readWord.2)

/-- The answers to requests made one after another, and the input after the last. -/
def serveAll : List Request → Input → List (Except Failure Answer) × Input
  | [], i => ([], i)
  | q :: qs, i => ((q.serve i).1 :: (serveAll qs (q.serve i).2).1, (serveAll qs (q.serve i).2).2)

/-! ### Lists -/

/-- A text without one final carriage return. -/
def dropReturn (cs : List Char) : List Char := if cs.getLast? = some '\r' then cs.dropLast else cs

/-- What a list of characters answers to a request, and the list afterwards. -/
def Request.onList : Request → List Char → Answer × List Char
  | .char, l => (.char l.head?, l.tail)
  | .unread c, l => (.done, c :: l)
  | .line, l =>
    if l = [] then (.text none, [])
    else (.text (some (.ofList (dropReturn (l.takeWhile (· ≠ '\n'))))),
      (l.dropWhile (· ≠ '\n')).tail)
  | .word, l =>
    let w := l.dropWhile Text.isBlank
    if w = [] then (.text none, [])
    else (.text (some (.ofList (w.takeWhile (!Text.isBlank ·)))), w.dropWhile (!Text.isBlank ·))

/-- The answers of a list of characters to requests made one after another. -/
def onListAll : List Request → List Char → List Answer × List Char
  | [], l => ([], l)
  | q :: qs, l => ((q.onList l).1 :: (onListAll qs (q.onList l).2).1, (onListAll qs (q.onList l).2).2)

/-! ### Accounts -/

/-- The characters that a request puts in front. -/
def Request.given : Request → List Char
  | .unread c => [c]
  | _ => []

/-- What an answer tells of the characters that were taken: a character as it is, a line without its
end, a word without the blanks in front of it. -/
inductive Tells : Request → Answer → List Char → Prop
  | char (c : Option Char) : Tells .char (.char c) c.toList
  | unread (c : Char) : Tells (.unread c) .done []
  | noLine : Tells .line (.text none) []
  | line (cs : List Char) {stop : List Char} (h : stop ∈ [[], ['\r'], ['\n'], ['\r', '\n']]) :
      Tells .line (.text (some (.ofList cs))) (cs ++ stop)
  | noWord {blanks : List Char} (h : ∀ c ∈ blanks, Text.isBlank c = true) :
      Tells .word (.text none) blanks
  | word (cs : List Char) {blanks : List Char} (h : ∀ c ∈ blanks, Text.isBlank c = true) :
      Tells .word (.text (some (.ofList cs))) (blanks ++ cs)

/-- Requests lead from one list to another: each takes off the front what its answer tells, puts
there what it gives, and leaves the rest as it is. -/
inductive Accounted : List Char → List Request → List Answer → List Char → Prop
  | nil (l : List Char) : Accounted l [] [] l
  | cons {q : Request} {a : Answer} {taken rest l : List Char} {qs : List Request}
      {as : List Answer} (ht : Tells q a taken) (h : Accounted (q.given ++ rest) qs as l) :
      Accounted (taken ++ rest) (q :: qs) (a :: as) l

theorem dropReturn_append (cs : List Char) :
    ∃ ret, (ret = [] ∨ ret = ['\r']) ∧ cs = dropReturn cs ++ ret := by
  unfold dropReturn
  split
  · next h =>
    obtain ⟨ds, rfl⟩ := List.getLast?_eq_some_iff.mp h
    exact ⟨['\r'], .inr rfl, by rw [List.dropLast_concat]⟩
  · exact ⟨[], .inl rfl, (List.append_nil cs).symm⟩

theorem tells_line (cs : List Char) {stop : List Char} (hstop : stop = [] ∨ stop = ['\n']) :
    Tells .line (.text (some (.ofList (dropReturn cs)))) (cs ++ stop) := by
  obtain ⟨ret, hret, hcs⟩ := dropReturn_append cs
  have hsplit : cs ++ stop = dropReturn cs ++ (ret ++ stop) := by
    rw [← List.append_assoc, ← hcs]
  rw [hsplit]
  refine .line _ ?_
  rcases hret with rfl | rfl <;> rcases hstop with rfl | rfl <;> simp

/-- A list is a text without newlines, and then at its end or at a newline. -/
theorem line_append (l : List Char) : ∃ stop, (stop = [] ∨ stop = ['\n']) ∧
    l = l.takeWhile (· ≠ '\n') ++ stop ++ (l.dropWhile (· ≠ '\n')).tail := by
  have hsplit := List.takeWhile_append_dropWhile (p := (· ≠ '\n')) (l := l)
  have hhead := List.head?_dropWhile_not (· ≠ '\n') l
  cases hd : l.dropWhile (· ≠ '\n') with
  | nil =>
    rw [hd] at hsplit
    exact ⟨[], .inl rfl, by rw [List.append_nil]; exact hsplit.symm⟩
  | cons c d =>
    rw [hd] at hsplit hhead
    obtain rfl : c = '\n' := by simpa using hhead
    exact ⟨['\n'], .inr rfl, by simpa using hsplit.symm⟩

theorem accounted_onList (q : Request) (l : List Char) : ∃ taken rest,
    l = taken ++ rest ∧ (q.onList l).2 = q.given ++ rest ∧ Tells q (q.onList l).1 taken := by
  cases q with
  | char => exact ⟨l.head?.toList, l.tail, by cases l <;> rfl, rfl, .char _⟩
  | unread c => exact ⟨[], l, rfl, rfl, .unread c⟩
  | line =>
    by_cases hl : l = []
    · subst hl
      exact ⟨[], [], rfl, rfl, .noLine⟩
    · obtain ⟨stop, hstop, hsplit⟩ := line_append l
      rw [Request.onList, if_neg hl]
      exact ⟨_, _, hsplit, rfl, tells_line _ hstop⟩
  | word =>
    have hblanks : ∀ c ∈ l.takeWhile Text.isBlank, Text.isBlank c = true :=
      fun c hc => List.all_eq_true.mp List.all_takeWhile c hc
    have hsplit := List.takeWhile_append_dropWhile (p := Text.isBlank) (l := l)
    rw [Request.onList]
    generalize l.dropWhile Text.isBlank = w at hsplit
    by_cases hw : w = []
    · subst hw
      exact ⟨_, [], hsplit.symm, rfl, .noWord hblanks⟩
    · have hword := List.takeWhile_append_dropWhile (p := (!Text.isBlank ·)) (l := w)
      simp only [if_neg hw]
      refine ⟨_, _, ?_, rfl, .word _ hblanks⟩
      rw [List.append_assoc, hword, hsplit]

/-- No character is lost, doubled or moved past another. -/
theorem accounted_onListAll (qs : List Request) (l : List Char) :
    Accounted l qs (onListAll qs l).1 (onListAll qs l).2 := by
  induction qs generalizing l with
  | nil => exact .nil l
  | cons q qs ih =>
    obtain ⟨taken, rest, hl, hl', htells⟩ := accounted_onList q l
    have hrest := ih (q.onList l).2
    rw [onListAll]
    generalize q.onList l = r at hl' htells hrest ⊢
    subst hl
    rw [hl'] at hrest ⊢
    exact .cons htells hrest

/-! ### Refinement -/

/-- The characters that are left to be read. -/
def Holds (i : Input) (l : List Char) : Prop := ∃ r, i.source.Delivers r ∧ l = i.pushback ++ r

theorem Holds.readChar (h : i.Holds l) :
    i.readChar.1 = .ok l.head? ∧ i.readChar.2.Holds l.tail := by
  obtain ⟨r, hr, rfl⟩ := h
  unfold Input.readChar
  cases hp : i.pushback with
  | cons c cs => exact ⟨rfl, r, hr, rfl⟩
  | nil =>
    obtain ⟨hhead, htail⟩ := hr.readChar
    exact ⟨hhead, r.tail, htail, by simp⟩

theorem Holds.readChar_nil (h : i.Holds []) : ∃ j, i.readChar = (.ok none, j) ∧ j.Holds [] := by
  obtain ⟨ha, hj⟩ := h.readChar
  exact ⟨_, Prod.ext ha rfl, hj⟩

theorem Holds.readChar_cons {c : Char} (h : i.Holds (c :: l)) :
    ∃ j, i.readChar = (.ok (some c), j) ∧ j.Holds l := by
  obtain ⟨ha, hj⟩ := h.readChar
  exact ⟨_, Prod.ext ha rfl, hj⟩

theorem Holds.unread (h : i.Holds l) (c : Char) : (i.unread c).Holds (c :: l) := by
  obtain ⟨r, hr, rfl⟩ := h
  exact ⟨r, hr, rfl⟩

/-! ### Lines -/

theorem lineFrom_none (h : i.readChar = (.ok none, j)) :
    lineFrom g i = (.ok (if g.isEmpty then none else some (finishLine g)), j) := by
  unfold lineFrom
  split <;> simp_all

theorem lineFrom_some {c : Char} (h : i.readChar = (.ok (some c), j)) : lineFrom g i =
    if c = '\n' then (.ok (some (finishLine g)), j) else lineFrom (c :: g) j := by
  rw [lineFrom]
  split <;> simp_all

theorem finishLine_reverse (cs : List Char) : finishLine cs.reverse = .ofList (dropReturn cs) := by
  rw [finishLine, dropReturn, ← List.head?_reverse]
  cases hcs : cs.reverse with
  | nil =>
    obtain rfl := List.reverse_eq_nil_iff.mp hcs
    rfl
  | cons c ds =>
    obtain rfl : cs = ds.reverse ++ [c] := by
      rw [← List.reverse_reverse cs, hcs, List.reverse_cons]
    by_cases hc : c = '\r'
    · subst hc
      simp [Text.withoutReturn]
    · simp [Text.withoutReturn, hc]

/-- The rest of a line goes up to the newline, which is taken too, or to the end. -/
theorem lineFrom_refines (h : i.Holds l) (hg : g ≠ [] ∨ l ≠ []) :
    ∃ j, lineFrom g i = (.ok (some (finishLine ((l.takeWhile (· ≠ '\n')).reverse ++ g))), j) ∧
      j.Holds (l.dropWhile (· ≠ '\n')).tail := by
  induction l generalizing i g with
  | nil =>
    obtain ⟨j, hr, hj⟩ := h.readChar_nil
    refine ⟨j, ?_, hj⟩
    rw [lineFrom_none hr]
    simp_all
  | cons c l ih =>
    obtain ⟨j, hr, hj⟩ := h.readChar_cons
    rw [lineFrom_some hr]
    by_cases hc : c = '\n'
    · exact ⟨j, by simp [hc], by simpa [hc] using hj⟩
    · obtain ⟨k, hk, hkl⟩ := ih hj (.inl (List.cons_ne_nil c g))
      refine ⟨k, ?_, by simpa [hc] using hkl⟩
      rw [if_neg hc, hk]
      simp [hc]

/-! ### Words -/

theorem wordFrom_none (h : i.readChar = (.ok none, j)) :
    wordFrom g i = (.ok (some (.ofList g.reverse)), j) := by
  unfold wordFrom
  split <;> simp_all

theorem wordFrom_some {c : Char} (h : i.readChar = (.ok (some c), j)) : wordFrom g i =
    if Text.isBlank c then (.ok (some (.ofList g.reverse)), j.unread c) else wordFrom (c :: g) j := by
  rw [wordFrom]
  split <;> simp_all

theorem readWord_none (h : i.readChar = (.ok none, j)) : i.readWord = (.ok none, j) := by
  unfold readWord
  split <;> simp_all

theorem readWord_some {c : Char} (h : i.readChar = (.ok (some c), j)) : i.readWord =
    if Text.isBlank c then j.readWord else wordFrom [c] j := by
  rw [readWord]
  split <;> simp_all

/-- The rest of a word goes up to a blank, which is given back, or to the end. -/
theorem wordFrom_refines (h : i.Holds l) : ∃ j,
    wordFrom g i = (.ok (some (.ofList (g.reverse ++ l.takeWhile (!Text.isBlank ·)))), j) ∧
      j.Holds (l.dropWhile (!Text.isBlank ·)) := by
  induction l generalizing i g with
  | nil =>
    obtain ⟨j, hr, hj⟩ := h.readChar_nil
    exact ⟨j, by simp [wordFrom_none hr], hj⟩
  | cons c l ih =>
    obtain ⟨j, hr, hj⟩ := h.readChar_cons
    rw [wordFrom_some hr]
    cases hc : Text.isBlank c with
    | true => exact ⟨j.unread c, by simp [hc], by simpa [hc] using hj.unread c⟩
    | false =>
      obtain ⟨k, hk, hkl⟩ := ih (g := c :: g) hj
      exact ⟨k, by simp [hk, hc], by simpa [hc] using hkl⟩

theorem readWord_refines (h : i.Holds l) : ∃ j,
    Request.word.serve i = (.ok (Request.word.onList l).1, j) ∧
      j.Holds (Request.word.onList l).2 := by
  induction l generalizing i with
  | nil =>
    obtain ⟨j, hr, hj⟩ := h.readChar_nil
    refine ⟨j, ?_, hj⟩
    simp [Request.serve, Request.onList, readWord_none hr, Except.map]
  | cons c l ih =>
    obtain ⟨j, hr, hj⟩ := h.readChar_cons
    cases hc : Text.isBlank c with
    | true =>
      obtain ⟨k, hk, hkl⟩ := ih hj
      have hskip : Request.word.onList (c :: l) = Request.word.onList l := by
        simp [Request.onList, hc]
      have hread : i.readWord = j.readWord := by simp [readWord_some hr, hc]
      rw [hskip]
      refine ⟨k, ?_, hkl⟩
      rw [← hk, Request.serve, Request.serve, hread]
    | false =>
      obtain ⟨k, hk, hkl⟩ := wordFrom_refines (g := [c]) hj
      have hread : i.readWord = wordFrom [c] j := by simp [readWord_some hr, hc]
      refine ⟨k, ?_, by simpa [Request.onList, hc] using hkl⟩
      simp [Request.serve, Request.onList, hread, hk, hc, Except.map]

/-! ### All requests -/

/-- **One request.** -/
theorem serve_refines (h : i.Holds l) (q : Request) : ∃ j,
    q.serve i = (.ok (q.onList l).1, j) ∧ j.Holds (q.onList l).2 := by
  cases q with
  | char =>
    obtain ⟨ha, hj⟩ := h.readChar
    exact ⟨_, by simp [Request.serve, Request.onList, ha, Except.map], hj⟩
  | unread c => exact ⟨_, rfl, h.unread c⟩
  | line =>
    by_cases hl : l = []
    · subst hl
      obtain ⟨j, hr, hj⟩ := h.readChar_nil
      refine ⟨j, ?_, hj⟩
      simp [Request.serve, Request.onList, readLine, lineFrom_none hr, Except.map]
    · obtain ⟨j, hr, hj⟩ := lineFrom_refines (g := []) h (.inr hl)
      rw [List.append_nil, finishLine_reverse] at hr
      refine ⟨j, ?_, by simpa [Request.onList, hl] using hj⟩
      simp [Request.serve, Request.onList, readLine, hr, hl, Except.map]
  | word => exact readWord_refines h

theorem serveAll_of_holds (h : i.Holds l) (qs : List Request) : ∃ j,
    serveAll qs i = ((onListAll qs l).1.map .ok, j) ∧ j.Holds (onListAll qs l).2 := by
  induction qs generalizing i l with
  | nil => exact ⟨i, rfl, h⟩
  | cons q qs ih =>
    obtain ⟨j, hq, hj⟩ := serve_refines h q
    obtain ⟨k, hqs, hk⟩ := ih hj
    refine ⟨k, ?_, hk⟩
    simp [serveAll, onListAll, hq, hqs]

/-- **Input is a list of characters.**  Let a source deliver some characters without a failure.  Then
input over it answers any sequence of requests as the list of these characters does, and holds
afterwards what is left of the list.  Each request has taken off the front of the list what its
answer tells and has put there what it gives back, so no character is lost, doubled or moved past
another. -/
theorem serveAll_refines {s : Source} {l : List Char} (h : s.Delivers l) (qs : List Request) : ∃ i,
    serveAll qs { source := s } = ((onListAll qs l).1.map .ok, i) ∧ i.Holds (onListAll qs l).2 ∧
      Accounted l qs (onListAll qs l).1 (onListAll qs l).2 := by
  have hholds : Holds { source := s } l := ⟨l, h, rfl⟩
  obtain ⟨i, hserve, hi⟩ := serveAll_of_holds hholds qs
  exact ⟨i, hserve, hi, accounted_onListAll qs l⟩

/-- A word, the blank behind it, a character given back in front of the rest of the line, which has
lost its return, a lone return on the last line, and the end. -/
theorem serveAll_refines_twoLines : ∃ i,
    serveAll [.word, .char, .unread 'b', .line, .line, .word]
        { source := .ofText " one two\r\n\r" } =
      ([.ok (.text "one"), .ok (.char ' '), .ok .done, .ok (.text "btwo"), .ok (.text ""),
        .ok (.text none)], i) ∧ i.Holds [] := by
  have hsource := Source.delivers_text " one two\r\n\r".toList .ignored
  obtain ⟨i, hserve, hi, -⟩ :=
    serveAll_refines hsource [.word, .char, .unread 'b', .line, .line, .word]
  exact ⟨i, hserve, hi⟩

end Stackline.Input
