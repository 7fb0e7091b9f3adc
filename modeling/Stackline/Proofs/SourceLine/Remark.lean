import Stackline.Proofs.SourceLine.Commas

/-!
# Comments

A comment begins with `remark` at the start of a text or after a blank. What is left of a text
without its comment has no comment, and neither has any part of it that does not begin with
`remark` itself. A comment takes characters away that are neither blanks nor commas; the number of
such characters, `ink`, is what reading parameters keeps, so a text that lost a comment cannot be
read as the same parameters.
-/

namespace Stackline.SourceLine

open Text

/-! ### Finding a comment -/

/-- Whether a comment begins in a text; it may at its very start only if `start`. -/
def hasRemark (start : Bool) (cs : List Char) : Bool := (beforeRemark? start cs).isSome

@[simp] theorem hasRemark_nil (start : Bool) : hasRemark start [] = false := rfl

theorem hasRemark_cons (start : Bool) (c : Char) (cs : List Char) :
    hasRemark start (c :: cs) =
      ((start && remark.isPrefixOf (c :: cs)) || hasRemark (isBlank c) cs) := by
  unfold hasRemark
  rw [beforeRemark?]
  split
  · rename_i h
    simp [h]
  · rename_i h
    simp [Bool.eq_false_iff.mpr h]

theorem hasRemark_true (cs : List Char) :
    hasRemark true cs = (remark.isPrefixOf cs || hasRemark false cs) := by
  cases cs with
  | nil => rfl
  | cons c cs => simp [hasRemark_cons]

theorem hasRemark_append_left {start : Bool} {u : List Char} (h : hasRemark start u = true)
    (v : List Char) : hasRemark start (u ++ v) = true := by
  induction u generalizing start with
  | nil => cases h
  | cons c u ih =>
    rw [hasRemark_cons, Bool.or_eq_true, Bool.and_eq_true, List.isPrefixOf_iff_prefix] at h
    rw [List.cons_append, hasRemark_cons, Bool.or_eq_true, Bool.and_eq_true,
      List.isPrefixOf_iff_prefix]
    rcases h with ⟨hs, hp⟩ | h
    · exact .inl ⟨hs, hp.trans (List.prefix_append (c :: u) v)⟩
    · exact .inr (ih h)

theorem hasRemark_append_right {v : List Char} (h : hasRemark false v = true) (start : Bool)
    (u : List Char) : hasRemark start (u ++ v) = true := by
  induction u generalizing start with
  | nil =>
    cases start with
    | false => exact h
    | true => simp [hasRemark_true, h]
  | cons c u ih => simp [hasRemark_cons, ih]

/-- A comment that begins inside a part of a text begins in the text. -/
theorem hasRemark_of_isInfix {p cs : List Char} (hp : p <:+: cs) (h : hasRemark false p = true)
    (start : Bool) : hasRemark start cs = true := by
  obtain ⟨u, v, rfl⟩ := hp
  exact hasRemark_append_left (hasRemark_append_right h start u) v

theorem prefix_append_cons_iff {r : List Char} {d : Char} (hd : d ∉ r) (u v : List Char) :
    r <+: u ++ d :: v ↔ r <+: u := by
  refine ⟨fun h => ?_, fun h => h.trans (List.prefix_append u _)⟩
  by_cases hlen : r.length ≤ u.length
  · exact List.prefix_of_prefix_length_le h (List.prefix_append u _) hlen
  · have hu : u ++ [d] <+: u ++ d :: v := ⟨v, by simp⟩
    have hr : u ++ [d] <+: r := List.prefix_of_prefix_length_le hu h (by simp; omega)
    exact absurd (hr.subset (by simp)) hd

/-- No comment reaches over a character that the beginning of comments does not hold. -/
theorem hasRemark_append_cons {d : Char} (hd : d ∉ remark) (start : Bool) (u v : List Char) :
    hasRemark start (u ++ d :: v) = (hasRemark start u || hasRemark (isBlank d) v) := by
  have hp (u : List Char) : remark.isPrefixOf (u ++ d :: v) = remark.isPrefixOf u := by
    rw [Bool.eq_iff_iff, List.isPrefixOf_iff_prefix, List.isPrefixOf_iff_prefix]
    exact prefix_append_cons_iff hd u v
  induction u generalizing start with
  | nil =>
    have hnil := hp []
    rw [List.nil_append] at hnil ⊢
    rw [hasRemark_cons, hnil]
    simp [remark]
  | cons c u ih =>
    have hcons := hp (c :: u)
    rw [List.cons_append] at hcons ⊢
    rw [hasRemark_cons, hasRemark_cons, ih, hcons, Bool.or_assoc]

theorem hasRemark_append_comma (start : Bool) (u v : List Char) :
    hasRemark start (u ++ ',' :: v) = (hasRemark start u || hasRemark false v) :=
  hasRemark_append_cons (by decide) start u v

/-- In a text that begins with a word, a comment begins with that word or after it. -/
theorem hasRemark_word_append {w : List Char} (hne : w ≠ []) (hw : ∀ c ∈ w, isBlank c = false)
    (start : Bool) (t : List Char) :
    hasRemark start (w ++ t) = ((start && remark.isPrefixOf (w ++ t)) || hasRemark false t) := by
  induction w generalizing start with
  | nil => exact absurd rfl hne
  | cons c w ih =>
    rw [List.cons_append, hasRemark_cons, hw c List.mem_cons_self]
    by_cases h : w = []
    · subst h
      rfl
    · rw [ih h (fun d hd => hw d (List.mem_cons_of_mem _ hd)) false]
      rfl

/-- Among parameters in a line a comment begins where one does in a parameter. -/
theorem hasRemark_listed (ps : List (List Char)) :
    hasRemark false (listed ps) = ps.any (hasRemark true) := by
  have hsp (p : List Char) : hasRemark false (' ' :: p) = hasRemark true p := by
    rw [hasRemark_cons]
    rfl
  induction ps with
  | nil => rfl
  | cons p ps ih =>
    by_cases h : ps = []
    · subst h
      simpa [listed, joined] using hsp p
    · have hne : ps.map (' ' :: ·) ≠ [] := by simpa using h
      rw [listed, List.map_cons, joined_cons _ hne, hasRemark_append_comma, hsp, List.any_cons,
        ← ih, listed]

/-! ### A text without its comment -/

theorem exists_of_beforeRemark? {start : Bool} {cs before : List Char}
    (h : beforeRemark? start cs = some before) : ∃ rest, cs = before ++ remark ++ rest := by
  induction cs generalizing start before with
  | nil => cases h
  | cons c cs ih =>
    rw [beforeRemark?] at h
    split at h
    · rename_i hp
      rw [Bool.and_eq_true, List.isPrefixOf_iff_prefix] at hp
      obtain ⟨rest, hrest⟩ := hp.2
      cases h
      exact ⟨rest, hrest.symm⟩
    · obtain ⟨b, hb, rfl⟩ := Option.map_eq_some_iff.mp h
      obtain ⟨rest, rfl⟩ := ih hb
      exact ⟨rest, by simp⟩

theorem beforeRemark?_append {start : Bool} {cs before : List Char}
    (h : beforeRemark? start cs = some before) (t : List Char) :
    beforeRemark? start (cs ++ t) = some before := by
  induction cs generalizing start before with
  | nil => cases h
  | cons c cs ih =>
    rw [beforeRemark?] at h
    rw [List.cons_append, beforeRemark?]
    split at h
    · rename_i hp
      rw [Bool.and_eq_true, List.isPrefixOf_iff_prefix] at hp
      rw [if_pos, h]
      rw [Bool.and_eq_true, List.isPrefixOf_iff_prefix]
      exact ⟨hp.1, hp.2.trans ⟨t, rfl⟩⟩
    · rename_i hp
      obtain ⟨b, hb, rfl⟩ := Option.map_eq_some_iff.mp h
      rw [if_neg, ih hb, Option.map_some]
      -- the comment in `cs` leaves no room for one that only `t` completes
      rw [Bool.and_eq_true, List.isPrefixOf_iff_prefix] at hp ⊢
      rintro ⟨hs, hpre⟩
      obtain ⟨rest, rfl⟩ := exists_of_beforeRemark? hb
      exact hp ⟨hs, List.prefix_of_prefix_length_le hpre ⟨t, rfl⟩ (by simp; omega)⟩

/-- What stands before the first comment has none. -/
theorem hasRemark_before {start : Bool} {cs before : List Char}
    (h : beforeRemark? start cs = some before) : hasRemark start before = false := by
  induction cs generalizing start before with
  | nil => cases h
  | cons c cs ih =>
    rw [beforeRemark?] at h
    split at h
    · cases h
      rfl
    · rename_i hp
      obtain ⟨b, hb, rfl⟩ := Option.map_eq_some_iff.mp h
      obtain ⟨rest, rfl⟩ := exists_of_beforeRemark? hb
      rw [hasRemark_cons, ih hb, Bool.or_false, ← Bool.not_eq_true]
      intro hq
      -- a comment at the start of the part would be one at the start of the whole
      rw [Bool.and_eq_true, List.isPrefixOf_iff_prefix] at hp hq
      exact hp ⟨hq.1, hq.2.trans ⟨remark ++ rest, by simp⟩⟩

theorem withoutRemark_of_not {cs : List Char} (h : hasRemark true cs = false) :
    withoutRemark cs = cs := by
  rw [hasRemark, Option.isSome_eq_false_iff, Option.isNone_iff_eq_none] at h
  rw [withoutRemark, h]

theorem withoutRemark_append {cs : List Char} (h : hasRemark true cs = true) (t : List Char) :
    withoutRemark (cs ++ t) = withoutRemark cs := by
  obtain ⟨before, hb⟩ := Option.isSome_iff_exists.mp h
  rw [withoutRemark, withoutRemark, beforeRemark?_append hb t, hb]

theorem withoutRemark_isPrefix (cs : List Char) : withoutRemark cs <+: cs := by
  unfold withoutRemark
  split
  · rename_i before h
    obtain ⟨rest, rfl⟩ := exists_of_beforeRemark? h
    exact (trimEnd_isPrefix before).trans ⟨remark ++ rest, by simp⟩
  · exact List.prefix_rfl

theorem hasRemark_withoutRemark (cs : List Char) : hasRemark true (withoutRemark cs) = false := by
  unfold withoutRemark
  split
  · rename_i before h
    rw [← Bool.not_eq_true]
    intro ht
    obtain ⟨v, hv⟩ := trimEnd_isPrefix before
    have hb := hasRemark_append_left ht v
    rw [hv, hasRemark_before h] at hb
    cases hb
  · rename_i h
    rw [hasRemark, h]
    rfl

/-! ### A comment after a text -/

/-- The word of comments ends a text, with nothing or a blank before it, so that a space would make
it the beginning of a comment. -/
def Dangles (cs : List Char) : Prop :=
  ∃ u, cs = u ++ "REM".toList ∧ ∀ d, u.getLast? = some d → isBlank d = true

theorem remark_prefix_append_space {u v : List Char} (h : remark <+: u ++ ' ' :: v) :
    remark <+: u ++ [' '] := by
  have hu : u ++ [' '] <+: u ++ ' ' :: v := ⟨v, by simp⟩
  by_cases hlen : remark.length ≤ (u ++ [' ']).length
  · exact List.prefix_of_prefix_length_le h hu hlen
  · -- a space stands only at the end of `remark`
    have hlt : u.length < 3 := by simpa [remark] using hlen
    have hrem : u ++ [' '] <+: "REM".toList := by
      have hpre := List.prefix_of_prefix_length_le hu h (by simp [remark]; omega)
      exact List.prefix_of_prefix_length_le hpre ⟨[' '], rfl⟩ (by simp; omega)
    exact absurd (hrem.subset (by simp : ' ' ∈ u ++ [' '])) (by decide)

/-- A comment put after a text begins there, unless the text and the space after it have one. -/
theorem beforeRemark?_append_remark {start : Bool} {cs : List Char}
    (h : hasRemark start (cs ++ [' ']) = false) (c : List Char) :
    beforeRemark? start (cs ++ ' ' :: (remark ++ c)) = some (cs ++ [' ']) := by
  induction cs generalizing start with
  | nil =>
    have hfirst : (start && remark.isPrefixOf (' ' :: (remark ++ c))) = false := by
      cases start <;> rfl
    rw [List.nil_append, beforeRemark?, hfirst]
    rfl
  | cons a cs ih =>
    rw [List.cons_append, hasRemark_cons, Bool.or_eq_false_iff] at h
    rw [List.cons_append, beforeRemark?, if_neg, ih h.2]
    · rfl
    · intro hp
      rw [Bool.and_eq_true, List.isPrefixOf_iff_prefix] at hp
      have hpre : remark <+: a :: (cs ++ [' ']) := remark_prefix_append_space (u := a :: cs) hp.2
      rw [hp.1, Bool.true_and, List.isPrefixOf_iff_prefix.mpr hpre] at h
      exact absurd h.1 (by decide)

/-- A space completes no comment but with the word of comments right before it. -/
theorem hasRemark_or_dangles {start : Bool} {cs : List Char}
    (h : hasRemark start (cs ++ [' ']) = true) :
    hasRemark start cs = true ∨ ∃ u, cs = u ++ "REM".toList ∧ (u = [] → start = true) ∧
      ∀ d, u.getLast? = some d → isBlank d = true := by
  induction cs generalizing start with
  | nil => simp [hasRemark_cons, remark] at h
  | cons c cs ih =>
    rw [List.cons_append, hasRemark_cons, Bool.or_eq_true, Bool.and_eq_true,
      List.isPrefixOf_iff_prefix] at h
    rw [hasRemark_cons, Bool.or_eq_true, Bool.and_eq_true, List.isPrefixOf_iff_prefix]
    rcases h with ⟨hs, hp⟩ | h
    · have hp : remark <+: (c :: cs) ++ [' '] := hp
      rcases List.prefix_concat_iff.mp hp with heq | hp
      · have hcs : c :: cs = "REM".toList := by
          have heq : "REM".toList ++ [' '] = (c :: cs) ++ [' '] := heq
          exact (List.append_cancel_right heq).symm
        exact .inr ⟨[], hcs, fun _ => hs, by simp⟩
      · exact .inl (.inl ⟨hs, hp⟩)
    · rcases ih h with h | ⟨u, rfl, hu, hlast⟩
      · exact .inl (.inr h)
      · refine .inr ⟨c :: u, rfl, by simp, fun d hd => ?_⟩
        cases hul : u.getLast? with
        | none =>
          obtain rfl := List.getLast?_eq_none_iff.mp hul
          cases hd
          exact hu rfl
        | some e =>
          rw [List.getLast?_cons, hul] at hd
          cases hd
          exact hlast _ hul

theorem hasRemark_of_dangles {cs : List Char} (h : Dangles cs) :
    hasRemark true (cs ++ [' ']) = true := by
  obtain ⟨u, rfl, hu⟩ := h
  rw [List.append_assoc]
  rcases List.eq_nil_or_concat u with rfl | ⟨u', d, rfl⟩
  · rfl
  · have hd : isBlank d = true := hu d (by simp)
    rw [List.concat_eq_append, List.append_assoc]
    refine hasRemark_append_right ?_ true u'
    show hasRemark false (d :: remark) = true
    rw [hasRemark_cons, hd]
    rfl

/-! ### Ink -/

/-- The number of characters that are neither blanks nor commas. -/
def ink (cs : List Char) : Nat := cs.countP fun c => !isBlank c && c != ','

theorem ink_append (u v : List Char) : ink (u ++ v) = ink u + ink v := List.countP_append

theorem ink_cons_comma (cs : List Char) : ink (',' :: cs) = ink cs := by simp [ink]

theorem ink_cons_blank {c : Char} (hc : isBlank c = true) (cs : List Char) :
    ink (c :: cs) = ink cs := by
  simp [ink, hc]

theorem ink_blanks {u : List Char} (hu : ∀ c ∈ u, isBlank c = true) : ink u = 0 := by
  rw [ink, List.countP_eq_zero]
  intro c hc
  simp [hu c hc]

theorem ink_trim (cs : List Char) : ink (trim cs) = ink cs := by
  obtain ⟨u, v, hu, hv, he⟩ := exists_trim cs
  have h := congrArg ink he
  rw [ink_append, ink_append, ink_blanks hu, ink_blanks hv] at h
  omega

theorem ink_joined (fs : List (List Char)) : ink (joined fs) = ink fs.flatten := by
  induction fs with
  | nil => rfl
  | cons f fs ih =>
    by_cases h : fs = []
    · subst h
      simp [joined]
    · rw [joined_cons f h, ink_append, ink_cons_comma, ih, List.flatten_cons, ink_append]

theorem ink_flatten_map {g : List Char → List Char} (hg : ∀ f, ink (g f) = ink f)
    (fs : List (List Char)) : ink (fs.map g).flatten = ink fs.flatten := by
  induction fs with
  | nil => rfl
  | cons f fs ih =>
    rw [List.map_cons, List.flatten_cons, List.flatten_cons, ink_append, ink_append, hg, ih]

/-- Reading parameters loses blanks and commas only. -/
theorem ink_params (cs : List Char) : ink (params cs).flatten = ink cs := by
  rw [params_eq, List.flatten_filter_not_isEmpty, ink_flatten_map ink_trim, ← ink_joined, joined_cut]

theorem ink_listed (ps : List (List Char)) : ink (listed ps) = ink ps.flatten := by
  rw [listed, ink_joined, ink_flatten_map fun p => ink_cons_blank rfl p]

/-- A comment takes ink away. -/
theorem ink_withoutRemark_lt {cs : List Char} (h : hasRemark true cs = true) :
    ink (withoutRemark cs) < ink cs := by
  obtain ⟨before, hb⟩ := Option.isSome_iff_exists.mp h
  obtain ⟨rest, rfl⟩ := exists_of_beforeRemark? hb
  obtain ⟨v, hv⟩ := trimEnd_isPrefix before
  have hle : ink (trimEnd before) ≤ ink before := by
    rw [← hv, ink_append, hv]
    exact Nat.le_add_right _ _
  have hr : ink remark = 3 := by decide
  have hw : withoutRemark (before ++ remark ++ rest) = trimEnd before := by rw [withoutRemark, hb]
  rw [hw, ink_append, ink_append, hr]
  omega

end Stackline.SourceLine
