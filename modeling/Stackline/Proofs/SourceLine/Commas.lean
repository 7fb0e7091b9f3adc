import Stackline.Proofs.Text
import Stackline.SourceLine

/-!
# The commas between parameters

`pieces` walks along a text and passes over each complete text in quotes. `cut` says which commas
part without walking ahead: all but those with an odd number of quotes before them and the end of a
text in quotes after them. Pieces with commas put between them, `joined`, come apart in the same
places when they `Fit`. The pieces of a text fit, and still do with the blanks around them changed
and the empty ones left out, so parameters that are written one after another are read back as
they were.
-/

namespace Stackline.SourceLine

open Text

/-! ### The end of a text in quotes -/

/-- Whether a text in quotes that is open before some characters ends among them. -/
def closes (cs : List Char) : Bool := (closing? cs).isSome

theorem closing?_cons {c : Char} (hc : c ≠ '"') (cs : List Char) :
    closing? (c :: cs) = (closing? cs).map (· + 1) := by
  cases cs <;> simp [closing?, hc]

theorem closes_cons {c : Char} (hc : c ≠ '"') (cs : List Char) : closes (c :: cs) = closes cs := by
  simp [closes, closing?_cons hc]

@[simp] theorem closes_quote_quote (cs : List Char) :
    closes ('"' :: '"' :: cs) = closes cs := by
  simp [closes, closing?]

theorem closes_quote_cons {c : Char} (hc : c ≠ '"') (cs : List Char) :
    closes ('"' :: c :: cs) = true := by
  simp [closes, closing?, hc]

/-- Any character but a quote ends a run of quotes, so the two sides of it can be looked at on their
own. -/
theorem closes_append {c : Char} (hc : c ≠ '"') (u v : List Char) :
    closes (u ++ c :: v) = (closes u || closes v) := by
  induction u using closing?.induct with
  | case1 => exact closes_cons hc v
  | case2 => exact closes_quote_cons hc v
  | case3 ds ih => simpa using ih
  | case4 d ds hd => simp [closes_quote_cons hd]
  | case5 a cs ha ih => simpa [closes_cons ha] using ih

/-! ### Cutting at commas -/

/-- The pieces between the commas that part. `odd` says whether the number of quotes so far is
odd. -/
def cut (odd : Bool) : List Char → List (List Char)
  | [] => [[]]
  | c :: cs =>
    if c = ',' ∧ (odd && closes cs) = false then [] :: cut odd cs
    else consFirst c (cut (odd ^^ c == '"') cs)

theorem cut_quote (odd : Bool) (cs : List Char) :
    cut odd ('"' :: cs) = consFirst '"' (cut (!odd) cs) := by
  simp [cut]

theorem cut_cons {c : Char} (odd : Bool) (hc : c ≠ '"') (cs : List Char) :
    cut odd (c :: cs) =
      if c = ',' ∧ (odd && closes cs) = false then [] :: cut odd cs
      else consFirst c (cut odd cs) := by
  have hb : (c == '"') = false := by simpa using hc
  rw [cut, hb, Bool.xor_false]

/-- What `pieces` gives at each moment of its walk: outside a text in quotes, inside one that is
closed, and after a quote that nothing closes. -/
structure Walks (cs : List Char) : Prop where
  outside : pieces 0 cs = cut false cs
  inside : ∀ n, closing? cs = some n → pieces n cs = cut true cs
  unclosed : closing? cs = none → pieces 0 cs = cut true cs

theorem Walks.cons {c : Char} {cs : List Char} (hc : c ≠ '"') (h : Walks cs) :
    Walks (c :: cs) := by
  have hq : quotedLength? (c :: cs) = none := by simp [quotedLength?, hc]
  have hp : pieces 0 (c :: cs) =
      if c = ',' then [] :: pieces 0 cs else consFirst c (pieces 0 cs) := by
    simp [pieces, hq]
  refine ⟨?_, ?_, ?_⟩
  · rw [hp, cut_cons false hc, h.outside]
    simp
  · intro n hn
    rw [closing?_cons hc] at hn
    obtain ⟨k, hk, rfl⟩ := Option.map_eq_some_iff.mp hn
    have hcl : closes cs = true := by simp [closes, hk]
    rw [pieces, cut_cons true hc, h.inside k hk, hcl]
    simp
  · intro hn
    rw [closing?_cons hc, Option.map_eq_none_iff] at hn
    have hcl : closes cs = false := by simp [closes, hn]
    rw [hp, cut_cons true hc, h.unclosed hn, hcl]
    simp

theorem Walks.outside_quote {cs : List Char} (h : Walks cs) :
    pieces 0 ('"' :: cs) = cut false ('"' :: cs) := by
  rw [cut_quote]
  cases hn : closing? cs with
  | none =>
    rw [pieces, quotedLength?, if_pos rfl, hn]
    exact congrArg (consFirst '"') (h.unclosed hn)
  | some n =>
    rw [pieces, quotedLength?, if_pos rfl, hn]
    exact congrArg (consFirst '"') (h.inside n hn)

/-- Of two quotes inside a text in quotes neither ends it. -/
theorem Walks.quote_quote {cs : List Char} (h : Walks cs) (hq : Walks ('"' :: cs)) :
    Walks ('"' :: '"' :: cs) := by
  have hcl : closing? ('"' :: '"' :: cs) = (closing? cs).map (· + 2) := by simp [closing?]
  refine ⟨hq.outside_quote, ?_, ?_⟩
  · intro n hn
    rw [hcl] at hn
    obtain ⟨k, hk, rfl⟩ := Option.map_eq_some_iff.mp hn
    rw [pieces, pieces, cut_quote, cut_quote, h.inside k hk]
    rfl
  · intro hn
    rw [hcl, Option.map_eq_none_iff] at hn
    -- without an end both counts of quotes cut the rest as `pieces` does
    rw [hq.outside_quote, cut_quote, cut_quote, cut_quote, cut_quote]
    simp only [Bool.not_false, Bool.not_true]
    rw [← h.outside, h.unclosed hn]

/-- A quote that no other follows ends the text in quotes. -/
theorem Walks.quote {cs : List Char} (hcl : closing? ('"' :: cs) = some 1) (h : Walks cs) :
    Walks ('"' :: cs) := by
  refine ⟨h.outside_quote, ?_, ?_⟩
  · intro n hn
    obtain rfl : n = 1 := Option.some.inj (hn.symm.trans hcl)
    rw [pieces, cut_quote, h.outside]
    rfl
  · intro hn
    rw [hcl] at hn
    cases hn

theorem walks : ∀ cs : List Char, Walks cs
  | [] => ⟨rfl, fun n _ => by cases n <;> rfl, fun _ => rfl⟩
  | c :: cs => by
    have h := walks cs
    by_cases hc : c = '"'
    · subst hc
      cases cs with
      | nil => exact h.quote rfl
      | cons d ds =>
        by_cases hd : d = '"'
        · subst hd
          exact (walks ds).quote_quote h
        · exact h.quote (by simp [closing?, hd])
    · exact h.cons hc

/-- The commas inside complete texts in quotes are those that `cut` passes over. -/
theorem pieces_eq_cut (cs : List Char) : pieces 0 cs = cut false cs := (walks cs).outside

/-! ### Pieces with commas between them -/

/-- Pieces as one text, with a comma between any two. -/
def joined (fs : List (List Char)) : List Char := [','].intercalate fs

theorem joined_cons {fs : List (List Char)} (f : List Char) (h : fs ≠ []) :
    joined (f :: fs) = f ++ ',' :: joined fs := by
  rw [joined, List.intercalate_cons_of_ne_nil h]
  simp [joined]

theorem joined_consFirst {fs : List (List Char)} (c : Char) (h : fs ≠ []) :
    joined (consFirst c fs) = c :: joined fs := by
  obtain ⟨f, fs, rfl⟩ := List.exists_cons_of_ne_nil h
  exact List.intercalate_cons_cons_left

theorem consFirst_ne_nil (c : Char) (fs : List (List Char)) : consFirst c fs ≠ [] := by
  cases fs <;> simp [consFirst]

theorem cut_ne_nil (odd : Bool) (cs : List Char) : cut odd cs ≠ [] := by
  cases cs with
  | nil => simp [cut]
  | cons c cs =>
    rw [cut]
    split
    · simp
    · exact consFirst_ne_nil _ _

/-- Cutting loses nothing but the commas. -/
theorem joined_cut (odd : Bool) (cs : List Char) : joined (cut odd cs) = cs := by
  induction cs generalizing odd with
  | nil => rfl
  | cons c cs ih =>
    rw [cut]
    split
    · rename_i h
      rw [joined_cons _ (cut_ne_nil _ _), ih, h.1]
      rfl
    · rw [joined_consFirst c (cut_ne_nil _ _), ih]

theorem closes_joined (fs : List (List Char)) : closes (joined fs) = fs.any closes := by
  induction fs with
  | nil => rfl
  | cons f fs ih =>
    by_cases h : fs = []
    · subst h
      simp [joined]
    · rw [joined_cons f h, closes_append (by decide), ih, List.any_cons]

theorem infix_joined {f : List Char} {fs : List (List Char)} (hf : f ∈ fs) : f <:+: joined fs := by
  induction fs with
  | nil => cases hf
  | cons g fs ih =>
    by_cases h : fs = []
    · subst h
      obtain rfl := List.mem_singleton.mp hf
      simp [joined]
    · rw [joined_cons g h]
      rcases List.mem_cons.mp hf with rfl | hf
      · exact (List.prefix_append f _).isInfix
      · exact (ih hf).trans ⟨g ++ [','], [], by simp⟩

theorem mem_joined {c : Char} {fs : List (List Char)} (hc : c ∈ joined fs) :
    c = ',' ∨ ∃ f ∈ fs, c ∈ f := by
  induction fs with
  | nil => cases hc
  | cons g fs ih =>
    by_cases h : fs = []
    · subst h
      exact .inr ⟨g, List.mem_cons_self, by simpa [joined] using hc⟩
    · rw [joined_cons g h, List.mem_append, List.mem_cons] at hc
      rcases hc with hc | rfl | hc
      · exact .inr ⟨g, List.mem_cons_self, hc⟩
      · exact .inl rfl
      · rcases ih hc with hc | ⟨f, hf, hc⟩
        · exact .inl hc
        · exact .inr ⟨f, List.mem_cons_of_mem _ hf, hc⟩

/-! ### Pieces that fit -/

/-- Whether the number of quotes is odd after a piece, given whether it is before. -/
def parity (odd : Bool) (f : List Char) : Bool := f.foldl (fun odd c => odd ^^ c == '"') odd

/-- No comma of a piece parts, if `later` says whether the text after the piece closes quotes. -/
def Whole (odd later : Bool) : List Char → Prop
  | [] => True
  | c :: cs =>
    (c = ',' → (odd && (closes cs || later)) = true) ∧ Whole (odd ^^ c == '"') later cs

/-- No comma of a piece parts when they are joined, and all commas between them do. -/
def Fits (odd : Bool) : List (List Char) → Prop
  | [] => True
  | f :: fs =>
    Whole odd (fs.any closes) f ∧ (parity odd f && fs.any closes) = false ∧ Fits (parity odd f) fs

theorem parity_cons (odd : Bool) (c : Char) (f : List Char) :
    parity odd (c :: f) = parity (odd ^^ c == '"') f := rfl

theorem cut_of_whole {odd : Bool} {f : List Char} (h : Whole odd false f) : cut odd f = [f] := by
  induction f generalizing odd with
  | nil => rfl
  | cons c f ih =>
    obtain ⟨hc, hf⟩ := h
    rw [Bool.or_false] at hc
    have hn : ¬ (c = ',' ∧ (odd && closes f) = false) := fun hp => by simp [hc hp.1] at hp
    rw [cut, if_neg hn, ih hf]
    rfl

theorem cut_append_comma {odd : Bool} {f rest : List Char} (h : Whole odd (closes rest) f)
    (hp : (parity odd f && closes rest) = false) :
    cut odd (f ++ ',' :: rest) = f :: cut (parity odd f) rest := by
  induction f generalizing odd with
  | nil => exact if_pos ⟨rfl, hp⟩
  | cons c f ih =>
    obtain ⟨hc, hf⟩ := h
    have hcl : closes (f ++ ',' :: rest) = (closes f || closes rest) := closes_append (by decide) _ _
    have hn : ¬ (c = ',' ∧ (odd && closes (f ++ ',' :: rest)) = false) := by
      rintro ⟨hcc, hno⟩
      rw [hcl, hc hcc] at hno
      cases hno
    rw [List.cons_append, cut, if_neg hn, ih hf hp, parity_cons]
    rfl

/-- Pieces that fit come apart as they were joined. -/
theorem cut_joined {odd : Bool} {fs : List (List Char)} (hne : fs ≠ []) (h : Fits odd fs) :
    cut odd (joined fs) = fs := by
  induction fs generalizing odd with
  | nil => exact absurd rfl hne
  | cons f fs ih =>
    obtain ⟨hf, hp, hfs⟩ := h
    by_cases hn : fs = []
    · subst hn
      simpa [joined] using cut_of_whole hf
    · rw [← closes_joined] at hf hp
      rw [joined_cons f hn, cut_append_comma hf hp, ih hn hfs]

/-- The pieces of a text fit. -/
theorem fits_cut (odd : Bool) (cs : List Char) : Fits odd (cut odd cs) := by
  induction cs generalizing odd with
  | nil => exact ⟨trivial, by simp, trivial⟩
  | cons c cs ih =>
    have hany (odd : Bool) : (cut odd cs).any closes = closes cs := by
      rw [← closes_joined, joined_cut]
    rw [cut]
    split
    · rename_i h
      refine ⟨trivial, ?_, ih odd⟩
      rw [hany]
      exact h.2
    · rename_i h
      have hodd := hany (odd ^^ c == '"')
      have hfits := ih (odd ^^ c == '"')
      obtain ⟨f, fs, hcut⟩ := List.exists_cons_of_ne_nil (cut_ne_nil (odd ^^ c == '"') cs)
      rw [hcut] at hodd hfits ⊢
      refine ⟨⟨fun hc => ?_, hfits.1⟩, hfits.2⟩
      rw [← List.any_cons, hodd]
      simpa [hc] using h

/-! ### Blanks around pieces -/

/-- Two pieces that differ in nothing that matters for commas. -/
structure Alike (f g : List Char) : Prop where
  closes : SourceLine.closes f = SourceLine.closes g
  parity : ∀ odd, SourceLine.parity odd f = SourceLine.parity odd g
  whole : ∀ odd later, Whole odd later f ↔ Whole odd later g

theorem Alike.refl (f : List Char) : Alike f f := ⟨rfl, fun _ => rfl, fun _ _ => Iff.rfl⟩

theorem Alike.trans {f g h : List Char} (h₁ : Alike f g) (h₂ : Alike g h) : Alike f h :=
  ⟨h₁.closes.trans h₂.closes, fun odd => (h₁.parity odd).trans (h₂.parity odd),
    fun odd later => (h₁.whole odd later).trans (h₂.whole odd later)⟩

theorem Alike.symm {f g : List Char} (h : Alike f g) : Alike g f :=
  ⟨h.closes.symm, fun odd => (h.parity odd).symm, fun odd later => (h.whole odd later).symm⟩

/-- A blank is neither a quote nor a comma. -/
theorem ne_of_isBlank {c : Char} (h : isBlank c = true) : c ≠ '"' ∧ c ≠ ',' := by
  constructor
  · rintro rfl
    exact absurd h (by decide)
  · rintro rfl
    exact absurd h (by decide)

theorem alike_cons {c : Char} (hc : isBlank c = true) (f : List Char) : Alike (c :: f) f := by
  obtain ⟨hq, hk⟩ := ne_of_isBlank hc
  have hb : (c == '"') = false := by simpa using hq
  refine ⟨closes_cons hq f, fun odd => ?_, fun odd later => ?_⟩
  · rw [parity_cons, hb, Bool.xor_false]
  · rw [Whole, hb, Bool.xor_false]
    exact ⟨fun h => h.2, fun h => ⟨fun he => absurd he hk, h⟩⟩

theorem alike_append {c : Char} (hc : isBlank c = true) (f : List Char) : Alike (f ++ [c]) f := by
  obtain ⟨hq, -⟩ := ne_of_isBlank hc
  have hcl (g : List Char) : closes (g ++ [c]) = closes g :=
    (closes_append hq g []).trans (Bool.or_false _)
  induction f with
  | nil => exact alike_cons hc []
  | cons d f ih =>
    refine ⟨hcl _, fun odd => ih.parity _, fun odd later => ?_⟩
    rw [List.cons_append, Whole, Whole, hcl, ih.whole]

theorem alike_blanks_append {u : List Char} (hu : ∀ c ∈ u, isBlank c = true) (f : List Char) :
    Alike (u ++ f) f := by
  induction u with
  | nil => exact Alike.refl f
  | cons c u ih =>
    have hc := hu c List.mem_cons_self
    exact (alike_cons hc _).trans (ih fun d hd => hu d (List.mem_cons_of_mem _ hd))

theorem alike_append_blanks {v : List Char} (hv : ∀ c ∈ v, isBlank c = true) (f : List Char) :
    Alike (f ++ v) f := by
  induction v generalizing f with
  | nil => simpa using Alike.refl f
  | cons c v ih =>
    have hc := hv c List.mem_cons_self
    rw [List.append_cons]
    exact (ih (fun d hd => hv d (List.mem_cons_of_mem _ hd)) _).trans (alike_append hc f)

theorem alike_trim (f : List Char) : Alike f (trim f) := by
  obtain ⟨u, v, hu, hv, he⟩ := exists_trim f
  have h := (alike_append_blanks hv (u ++ trim f)).trans (alike_blanks_append hu (trim f))
  rwa [← he] at h

theorem Fits.map {odd : Bool} {fs : List (List Char)} {g : List Char → List Char}
    (hg : ∀ f, Alike f (g f)) (h : Fits odd fs) : Fits odd (fs.map g) := by
  induction fs generalizing odd with
  | nil => exact trivial
  | cons f fs ih =>
    obtain ⟨hf, hp, hfs⟩ := h
    have hany : (fs.map g).any closes = fs.any closes := by
      simp [List.any_map, Function.comp_def, ← (hg _).closes]
    refine ⟨?_, ?_, ?_⟩
    · rw [hany, ← (hg f).whole]
      exact hf
    · rw [hany, ← (hg f).parity]
      exact hp
    · rw [← (hg f).parity]
      exact ih hfs

theorem Fits.filter {odd : Bool} {fs : List (List Char)} (h : Fits odd fs) :
    Fits odd (fs.filter fun f => !f.isEmpty) := by
  induction fs generalizing odd with
  | nil => exact trivial
  | cons f fs ih =>
    obtain ⟨hf, hp, hfs⟩ := h
    have hany : (fs.filter fun f => !f.isEmpty).any closes = fs.any closes := by
      rw [List.any_filter]
      congr 1
      funext g
      cases g with
      | nil => rfl
      | cons c g => simp
    cases f with
    | nil => exact ih hfs
    | cons c f =>
      refine ⟨?_, ?_, ih hfs⟩
      · rw [hany]
        exact hf
      · rw [hany]
        exact hp

/-! ### Parameters -/

/-- Parameters as they stand in a line after its mnemonic: each after a space, with commas between
them. -/
def listed (ps : List (List Char)) : List Char := joined (ps.map (' ' :: ·))

theorem listed_eq {ps : List (List Char)} (h : ps ≠ []) :
    listed ps = ' ' :: [',', ' '].intercalate ps := by
  induction ps with
  | nil => exact absurd rfl h
  | cons p ps ih =>
    by_cases hps : ps = []
    · subst hps
      simp [listed, joined]
    · have hne : ps.map (' ' :: ·) ≠ [] := by simpa using hps
      rw [listed, List.map_cons, joined_cons _ hne, List.intercalate_cons_of_ne_nil hps]
      rw [show joined (ps.map (' ' :: ·)) = listed ps from rfl, ih hps]
      simp

theorem params_eq (cs : List Char) :
    params cs = ((cut false cs).map trim).filter fun p => !p.isEmpty := by
  rw [params, pieces_eq_cut]

theorem fits_params (cs : List Char) : Fits false (params cs) := by
  rw [params_eq]
  exact ((fits_cut false cs).map alike_trim).filter

theorem mem_params {cs p : List Char} (h : p ∈ params cs) :
    ∃ f ∈ cut false cs, p = trim f ∧ p ≠ [] := by
  rw [params_eq, List.mem_filter, List.mem_map] at h
  obtain ⟨⟨f, hf, rfl⟩, hp⟩ := h
  exact ⟨f, hf, rfl, by simpa using hp⟩

theorem infix_of_mem_params {cs p : List Char} (h : p ∈ params cs) : p <:+: cs := by
  obtain ⟨f, hf, rfl, -⟩ := mem_params h
  have hcut := infix_joined hf
  rw [joined_cut] at hcut
  exact (trim_isInfix f).trans hcut

/-- Parameters that are trimmed and fit are read back as they were written. -/
theorem params_listed {ps : List (List Char)} (hfits : Fits false ps)
    (htrim : ∀ p ∈ ps, trim p = p ∧ p ≠ []) : params (listed ps) = ps := by
  by_cases hps : ps = []
  · subst hps
    rfl
  · have halike (f : List Char) : Alike f (' ' :: f) := (alike_cons rfl f).symm
    have hmap : (ps.map (' ' :: ·)).map trim = ps := by
      rw [List.map_map]
      refine (List.map_congr_left fun p hp => ?_).trans (List.map_id ps)
      exact (congrArg trimEnd (trimStart_cons_blank rfl p)).trans (htrim p hp).1
    rw [params_eq, listed, cut_joined (by simpa using hps) (hfits.map halike), hmap]
    exact List.filter_eq_self.mpr fun p hp => by simpa using (htrim p hp).2

/-- What is read as parameters can be written and read again. -/
theorem params_listed_params (cs : List Char) : params (listed (params cs)) = params cs := by
  refine params_listed (fits_params cs) fun p hp => ?_
  obtain ⟨f, -, rfl, hne⟩ := mem_params hp
  exact ⟨trim_trim f, hne⟩

/-- Blanks at the end of a text belong to its last piece. -/
theorem exists_cut_append_blanks {v : List Char} (hv : ∀ c ∈ v, isBlank c = true) (odd : Bool)
    (cs : List Char) : ∃ fs f, cut odd cs = fs ++ [f] ∧ cut odd (cs ++ v) = fs ++ [f ++ v] := by
  induction cs generalizing odd with
  | nil =>
    have hwhole : Whole odd false v := by
      have h := (alike_append_blanks hv []).whole odd false
      exact h.mpr trivial
    exact ⟨[], [], rfl, cut_of_whole hwhole⟩
  | cons c cs ih =>
    have hcl : closes (cs ++ v) = closes cs := (alike_append_blanks hv cs).closes
    rw [List.cons_append, cut, cut, hcl]
    split
    · obtain ⟨fs, f, h, h'⟩ := ih odd
      exact ⟨[] :: fs, f, by rw [h]; rfl, by rw [h']; rfl⟩
    · obtain ⟨fs, f, h, h'⟩ := ih (odd ^^ c == '"')
      rw [h, h']
      cases fs with
      | nil => exact ⟨[], c :: f, rfl, rfl⟩
      | cons g fs => exact ⟨(c :: g) :: fs, f, rfl, rfl⟩

/-- Blanks at the end of a text do not change its parameters. -/
theorem params_append_blanks {v : List Char} (hv : ∀ c ∈ v, isBlank c = true) (cs : List Char) :
    params (cs ++ v) = params cs := by
  obtain ⟨fs, f, h, h'⟩ := exists_cut_append_blanks hv false cs
  rw [params_eq, params_eq, h, h', List.map_append, List.map_append, List.map_singleton,
    List.map_singleton, trim_append_blanks hv]

end Stackline.SourceLine
