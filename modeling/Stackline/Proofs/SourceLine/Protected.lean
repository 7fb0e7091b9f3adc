import Stackline.Proofs.SourceLine.Commas

/-!
# Protected commas

Which commas of a text part parameters can be told from the text as a whole, without walking along
it.  A comma is `Protected` if the number of quotes before it is odd and some maximal run of quotes
after it is of odd length: such a run is what ends a text in quotes (`hasOddRun_iff_closes`).
`parted` cuts a text at all other commas, and the parameters are its pieces without the blanks
around them and without those that are then empty (`params_eq_parted`).  Texts that are written one
after another are read as they are exactly if each of them `Stands` among the others
(`params_intercalate_iff`).
-/

namespace Stackline.SourceLine

open Text

/-! ### Runs of quotes -/

/-- Some quotes in a row are odd in number, with no quote right before or right after them. -/
def HasOddRun (cs : List Char) : Prop :=
  ∃ u n v, cs = u ++ List.replicate n '"' ++ v ∧ n % 2 = 1 ∧
    u.getLast? ≠ some '"' ∧ v.head? ≠ some '"'

/-- Quotes at the front, of which two at a time stand for one. -/
theorem closes_replicate_append {v : List Char} (hv : v.head? ≠ some '"') (n : Nat) :
    closes (List.replicate (2 * n + 1) '"' ++ v) = true := by
  induction n with
  | zero =>
    cases v with
    | nil => rfl
    | cons c v =>
      have hc : c ≠ '"' := by simpa using hv
      exact closes_quote_cons hc v
  | succ n ih => simpa [Nat.mul_succ, List.replicate_succ] using ih

theorem closes_of_hasOddRun {cs : List Char} (h : HasOddRun cs) : closes cs = true := by
  obtain ⟨u, n, v, rfl, hn, hu, hv⟩ := h
  obtain ⟨k, rfl⟩ : ∃ k, n = 2 * k + 1 := ⟨n / 2, by omega⟩
  have hrun := closes_replicate_append hv k
  rcases List.eq_nil_or_concat u with rfl | ⟨u', c, rfl⟩
  · exact hrun
  · -- the character before the run ends whatever was open before it
    have hc : c ≠ '"' := by simpa using hu
    rw [List.concat_eq_append, List.append_assoc, List.append_assoc, List.singleton_append,
      closes_append hc, hrun, Bool.or_true]

theorem HasOddRun.cons {c : Char} {cs : List Char} (hc : c ≠ '"') (h : HasOddRun cs) :
    HasOddRun (c :: cs) := by
  obtain ⟨u, n, v, rfl, hn, hu, hv⟩ := h
  refine ⟨c :: u, n, v, rfl, hn, ?_, hv⟩
  cases u with
  | nil => simpa using hc
  | cons d u => simpa using hu

/-- Two more quotes make a run at the front two longer, and change no other run. -/
theorem HasOddRun.quote_quote {cs : List Char} (h : HasOddRun cs) :
    HasOddRun ('"' :: '"' :: cs) := by
  obtain ⟨u, n, v, rfl, hn, hu, hv⟩ := h
  cases u with
  | nil => exact ⟨[], n + 2, v, rfl, by omega, hu, hv⟩
  | cons d u => exact ⟨'"' :: '"' :: d :: u, n, v, rfl, hn, by simpa using hu, hv⟩

/-- A text in quotes ends at a maximal run of quotes whose length is odd. -/
theorem hasOddRun_iff_closes (cs : List Char) : HasOddRun cs ↔ closes cs = true := by
  refine ⟨closes_of_hasOddRun, fun h => ?_⟩
  induction cs using closing?.induct with
  | case1 => cases h
  | case2 => exact ⟨[], 1, [], rfl, rfl, by simp, by simp⟩
  | case3 ds ih => exact (ih (by simpa using h)).quote_quote
  | case4 d ds hd => exact ⟨[], 1, d :: ds, rfl, rfl, by simp, by simpa using hd⟩
  | case5 c cs hc ih => exact (ih (by simpa [closes_cons hc] using h)).cons hc

instance (cs : List Char) : Decidable (HasOddRun cs) :=
  decidable_of_iff _ (hasOddRun_iff_closes cs).symm

/-! ### Cutting at the other commas -/

/-- A comma at a position parts nothing: the number of quotes before it is odd, and some maximal
run of quotes after it is of odd length. -/
def Protected (cs : List Char) (k : Nat) : Prop :=
  (cs.take k).count '"' % 2 = 1 ∧ HasOddRun (cs.drop (k + 1))

instance (cs : List Char) (k : Nat) : Decidable (Protected cs k) :=
  inferInstanceAs (Decidable (_ ∧ _))

/-- The pieces of a text between those commas that are not protected. -/
def parted (cs : List Char) : List (List Char) :=
  (cs.zipIdx.splitOnP fun ck => ck.1 = ',' ∧ ¬ Protected cs ck.2).map (·.map Prod.fst)

theorem protected_append (u v : List Char) (c : Char) :
    Protected (u ++ c :: v) u.length ↔ u.count '"' % 2 = 1 ∧ HasOddRun v := by
  have hdrop : (u ++ c :: v).drop (u.length + 1) = v := by
    rw [List.append_cons]
    exact List.drop_left' (by simp)
  rw [Protected, List.take_left, hdrop]

theorem map_modifyHead_cons {α β : Type} (f : α → β) (a : α) (ls : List (List α)) :
    (ls.modifyHead (a :: ·)).map (·.map f) = (ls.map (·.map f)).modifyHead (f a :: ·) := by
  cases ls <;> rfl

theorem modifyHead_eq_consFirst {fs : List (List Char)} (c : Char) (h : fs ≠ []) :
    fs.modifyHead (c :: ·) = consFirst c fs := by
  obtain ⟨f, fs, rfl⟩ := List.exists_cons_of_ne_nil h
  rfl

/-- Whether the number of quotes is odd after one more character. -/
theorem count_append_singleton (u : List Char) (c : Char) :
    decide ((u ++ [c]).count '"' % 2 = 1) = (decide (u.count '"' % 2 = 1) ^^ c == '"') := by
  rw [List.count_append, List.count_singleton]
  by_cases hc : c = '"'
  · subst hc
    have := Nat.mod_two_eq_zero_or_one (u.count '"')
    grind
  · have hb : (c == '"') = false := by simpa using hc
    simp [hb]

/-- The rest `v` of a text is cut as `cut` does, which has counted the quotes of `u` before it. -/
theorem cut_eq_splitOnP (u v : List Char) :
    ((v.zipIdx u.length).splitOnP fun ck => ck.1 = ',' ∧ ¬ Protected (u ++ v) ck.2).map
      (·.map Prod.fst) = cut (u.count '"' % 2 = 1) v := by
  induction v generalizing u with
  | nil => rfl
  | cons c v ih =>
    have hrest := ih (u ++ [c])
    rw [List.append_assoc, List.singleton_append, List.length_append,
      List.length_singleton] at hrest
    have hpart : (c = ',' ∧ ¬ Protected (u ++ c :: v) u.length) ↔
        (c = ',' ∧ (decide (u.count '"' % 2 = 1) && closes v) = false) := by
      rw [protected_append, hasOddRun_iff_closes]
      simp
    rw [List.zipIdx_cons, List.splitOnP_cons_eq_if_modifyHead, cut]
    by_cases hc : c = ',' ∧ ¬ Protected (u ++ c :: v) u.length
    · obtain rfl := hc.1
      rw [if_pos (by simpa using hc), if_pos (hpart.mp hc), List.map_cons, hrest,
        count_append_singleton]
      simp
    · rw [if_neg (by simpa using hc), if_neg (fun h => hc (hpart.mpr h)), map_modifyHead_cons,
        hrest, count_append_singleton, modifyHead_eq_consFirst _ (cut_ne_nil _ _)]

theorem parted_eq_cut (cs : List Char) : parted cs = cut false cs := cut_eq_splitOnP [] cs

/-- **Parameters by protected commas.**  The parameters in a text are what remains of it when it is
cut at every comma that is not protected, the blanks are taken from both ends of each piece, and
the empty pieces are left out. -/
theorem params_eq_parted (cs : List Char) :
    params cs = ((parted cs).map trim).filter fun p => !p.isEmpty := by
  rw [params_eq, parted_eq_cut]

-- The doubled quotes are an even run, so the last comma has no odd run after it and parts.
example : parted "\"a,b\", \"c, d\"\"".toList =
    ["\"a,b\"".toList, " \"c".toList, " d\"\"".toList] := by decide +kernel

/-! ### Pieces that stay as they are -/

/-- A piece that is written between `before` and `after` is read as one: every comma in it is
protected, by the quotes before the comma and by an odd run after it in this piece or a later one,
and the comma behind the piece is not. -/
structure Stands (before f : List Char) (after : List (List Char)) : Prop where
  commas : ∀ x y, f = x ++ ',' :: y →
    (before ++ x).count '"' % 2 = 1 ∧ (HasOddRun y ∨ ∃ g ∈ after, HasOddRun g)
  ends : (before ++ f).count '"' % 2 = 1 → ∀ g ∈ after, ¬ HasOddRun g

theorem parity_eq (before f : List Char) :
    parity (before.count '"' % 2 = 1) f = decide ((before ++ f).count '"' % 2 = 1) := by
  induction f generalizing before with
  | nil => simp [parity]
  | cons c f ih => rw [parity_cons, ← count_append_singleton, ih, ← List.append_cons]

theorem whole_iff (before f : List Char) (later : Bool) :
    Whole (before.count '"' % 2 = 1) later f ↔ ∀ x y, f = x ++ ',' :: y →
      (before ++ x).count '"' % 2 = 1 ∧ (HasOddRun y ∨ later = true) := by
  induction f generalizing before with
  | nil => simp [Whole]
  | cons c f ih =>
    rw [Whole, ← count_append_singleton, ih]
    simp only [Bool.and_eq_true, decide_eq_true_eq, Bool.or_eq_true, ← hasOddRun_iff_closes]
    constructor
    · rintro ⟨hc, hf⟩ x y hxy
      cases x with
      | nil =>
        obtain ⟨rfl, rfl⟩ := List.cons.inj hxy
        simpa using hc rfl
      | cons d x =>
        obtain ⟨rfl, rfl⟩ := List.cons.inj hxy
        simpa using hf x y rfl
    · intro h
      refine ⟨?_, fun x y hxy => ?_⟩
      · rintro rfl
        simpa using h [] f rfl
      · subst hxy
        simpa using h (c :: x) y rfl

theorem any_closes_iff (fs : List (List Char)) :
    fs.any closes = true ↔ ∃ g ∈ fs, HasOddRun g := by
  simp [hasOddRun_iff_closes]

/-- Pieces fit if each of them stands among the others. -/
theorem fits_iff (before : List Char) (fs : List (List Char)) :
    Fits (before.count '"' % 2 = 1) fs ↔
      ∀ u f v, fs = u ++ f :: v → Stands (before ++ u.flatten) f v := by
  induction fs generalizing before with
  | nil => simp [Fits]
  | cons f fs ih =>
    have hends : (decide ((before ++ f).count '"' % 2 = 1) && fs.any closes) = false ↔
        ((before ++ f).count '"' % 2 = 1 → ∀ g ∈ fs, ¬ HasOddRun g) := by
      rw [Bool.and_eq_false_imp, decide_eq_true_eq, ← Bool.not_eq_true, any_closes_iff]
      simp
    rw [Fits, whole_iff, any_closes_iff, parity_eq, hends, ih]
    constructor
    · rintro ⟨hcommas, hf, hfs⟩ u g v hsplit
      cases u with
      | nil =>
        obtain ⟨rfl, rfl⟩ := List.cons.inj hsplit
        simpa using Stands.mk hcommas hf
      | cons f' u =>
        obtain ⟨rfl, rfl⟩ := List.cons.inj hsplit
        simpa using hfs u g v rfl
    · intro h
      have hfirst : Stands before f fs := by simpa using h [] f fs rfl
      refine ⟨hfirst.commas, hfirst.ends, fun u g v hsplit => ?_⟩
      subst hsplit
      simpa using h (f :: u) g v rfl

/-- A blank in front makes no difference. -/
theorem params_cons_blank {c : Char} (hc : isBlank c = true) (cs : List Char) :
    params (c :: cs) = params cs := by
  obtain ⟨hq, hk⟩ := ne_of_isBlank hc
  obtain ⟨f, fs, hcut⟩ := List.exists_cons_of_ne_nil (cut_ne_nil false cs)
  have htrim : trim (c :: f) = trim f := congrArg trimEnd (trimStart_cons_blank hc f)
  rw [params_eq, params_eq, cut_cons false hq, if_neg (fun h => hk h.1), hcut, consFirst,
    List.map_cons, List.map_cons, htrim]

/-- **Which texts are read back as parameters.**  Texts without blanks around them that are written
one after another are read as they are exactly if each of them stands among the others. -/
theorem params_intercalate_iff {ps : List (List Char)} (h : ∀ p ∈ ps, trim p = p ∧ p ≠ []) :
    params ([',', ' '].intercalate ps) = ps ↔
      ∀ u p v, ps = u ++ p :: v → Stands u.flatten p v := by
  have hlisted : params ([',', ' '].intercalate ps) = params (listed ps) := by
    by_cases hps : ps = []
    · subst hps
      rfl
    · rw [listed_eq hps, params_cons_blank rfl]
  have hfits : Fits false ps ↔ ∀ u p v, ps = u ++ p :: v → Stands u.flatten p v := fits_iff [] ps
  rw [hlisted, ← hfits]
  exact ⟨fun hp => hp ▸ fits_params _, fun hf => params_listed hf h⟩

end Stackline.SourceLine
