import Mathlib.Data.List.TakeDrop
import Stackline.Proofs.Program
import Stackline.Proofs.SourceLine.Remark

/-!
# Reading the listing of a program

The listing of a program has a line for each instruction, with its number, its mnemonic and its
parameters. Each line is read on its own, as an instruction with the number it stands under, so
a program is read back from its listing if and only if each of its instructions is read back from
its line. That fails exactly where a comment begins in the line. A program that was read from a
text has no comment inside its parameters, which leaves the start of a parameter and the mnemonic.
-/

namespace Stackline

namespace SourceLine

open Text Number

/-! ### Reading a line -/

/-- What an instruction on a line is made of. -/
theorem ofBody_eq_instruction {line : LineNumber} {cs : List Char} {i : Instruction}
    (h : ofBody line cs = .instruction i) :
    ∃ word after, withoutRemark (trimStart cs) = word ++ after ∧ word ≠ [] ∧
      (∀ c ∈ word, isWordChar c = true) ∧ i.line = line ∧ i.mnemonic.toList = word ∧
      i.params.map String.toList = params after := by
  unfold ofBody at h
  rw [List.span_eq_takeWhile_dropWhile] at h
  have hsplit : (withoutRemark (trimStart cs)).takeWhile isWordChar ++
      (withoutRemark (trimStart cs)).dropWhile isWordChar = withoutRemark (trimStart cs) :=
    List.takeWhile_append_dropWhile
  refine ⟨_, _, hsplit.symm, ?_⟩
  simp only at h
  split at h
  · cases h
  · rename_i hne
    refine ⟨by simpa using hne, fun c hc => List.all_eq_true.mp List.all_takeWhile c hc, ?_⟩
    split at h
    · rename_i hafter
      cases h
      rw [hafter]
      exact ⟨rfl, String.toList_ofList, rfl⟩
    · split at h
      · cases h
        exact ⟨rfl, String.toList_ofList, by simp [Instruction.ofMnemonic, Function.comp_def]⟩
      · cases h

/-- A word and what follows it after a blank make an instruction. -/
theorem ofBody_word {cs word after : List Char} (line : LineNumber)
    (hcs : withoutRemark (trimStart cs) = word ++ after) (hne : word ≠ [])
    (hw : ∀ c ∈ word, isWordChar c = true) (ha : ∀ c, after.head? = some c → isBlank c = true) :
    ofBody line cs = .instruction
      (.ofMnemonic line (.ofList word) ((params after).map .ofList)) := by
  have hspan : (word ++ after).span isWordChar = (word, after) :=
    span_append hw fun c hc => isWordChar_of_isBlank (ha c hc)
  have hemp : word.isEmpty = false := by simpa using hne
  unfold ofBody
  rw [hcs, hspan]
  simp only [hemp]
  cases after with
  | nil => rfl
  | cons c after => simp [ha c rfl]

/-- The digits of a line number are read as that number. -/
theorem ofChars_digits (line : LineNumber) (rest : List Char) :
    ofChars (digitsOf line.toNat ++ ' ' :: rest) = ofBody line (' ' :: rest) := by
  have hdigit : ∀ c ∈ digitsOf line.toNat, c.isDigit = true := fun c hc =>
    Nat.isDigit_of_mem_toDigits (by decide) (by decide) hc
  have hne : digitsOf line.toNat ≠ [] := Nat.toDigits_ne_nil
  have htrim : trimStart (digitsOf line.toNat ++ ' ' :: rest) =
      digitsOf line.toNat ++ ' ' :: rest := by
    obtain ⟨c, ds, hds⟩ := List.exists_cons_of_ne_nil hne
    rw [hds]
    exact trimStart_cons (isBlank_of_isDigit (hdigit c (hds ▸ List.mem_cons_self))) _
  have hspan : spanDigits (digitsOf line.toNat ++ ' ' :: rest) =
      (digitsOf line.toNat, ' ' :: rest) := by
    refine span_append hdigit fun c hc => ?_
    obtain rfl : ' ' = c := Option.some.inj hc
    decide
  have hemp : (digitsOf line.toNat).isEmpty = false := by simpa using hne
  have hlt : line.toNat < UInt32.size := line.toNat_lt
  unfold ofChars
  rw [htrim, hspan]
  simp only [hemp, natOf_digitsOf, hlt, ↓reduceIte, UInt32.ofNat_toNat]
  rfl

/-! ### Instructions as lines -/

/-- An instruction as text, without its line number. -/
def body (i : Instruction) : List Char := i.mnemonic.toList ++ listed (i.params.map String.toList)

theorem toList_display (i : Instruction) :
    i.display.toList = digitsOf i.line.toNat ++ ' ' :: body i := by
  unfold Instruction.display body
  split
  · rename_i h
    rw [List.isEmpty_iff.mp h]
    simp [listed, joined, digitsOf]
  · rename_i h
    rw [listed_eq (by simpa using h)]
    simp [String.toList_intercalate, digitsOf]

theorem firm_listed {ps : List (List Char)} (hne : ps ≠ []) (h : ∀ p ∈ ps, Firm p ∧ p ≠ []) :
    Firm (listed ps) ∧ listed ps ≠ [] := by
  induction ps with
  | nil => exact absurd rfl hne
  | cons p ps ih =>
    by_cases hps : ps = []
    · subst hps
      obtain ⟨hp, hpne⟩ := h p List.mem_cons_self
      rw [listed_eq (by simp), List.intercalate_singleton]
      exact ⟨hp.append hpne [' '], by simp⟩
    · obtain ⟨hfirm, hlne⟩ := ih hps fun q hq => h q (List.mem_cons_of_mem _ hq)
      have hmap : ps.map (' ' :: ·) ≠ [] := by simpa using hps
      rw [listed, List.map_cons, joined_cons _ hmap, List.append_cons]
      exact ⟨hfirm.append hlne _, by simp⟩

/-- An instruction that a line of text holds. -/
structure OnLine (i : Instruction) : Prop where
  word_ne : i.mnemonic.toList ≠ []
  word : ∀ c ∈ i.mnemonic.toList, isWordChar c = true
  after : ∃ cs, '\n' ∉ cs ∧ hasRemark false cs = false ∧ i.params.map String.toList = params cs

theorem onLine_of_ofBody {line : LineNumber} {cs : List Char} {i : Instruction} (hn : '\n' ∉ cs)
    (h : ofBody line cs = .instruction i) : OnLine i := by
  obtain ⟨word, after, hsplit, hne, hw, -, hm, hp⟩ := ofBody_eq_instruction h
  have hsub : ∀ c ∈ word ++ after, c ∈ cs := fun c hc =>
    (trimStart_suffix cs).subset ((withoutRemark_isPrefix _).subset (hsplit ▸ hc))
  have hrem := hasRemark_withoutRemark (trimStart cs)
  rw [hsplit, hasRemark_word_append hne fun c hc => isBlank_of_isWordChar (hw c hc)] at hrem
  refine ⟨hm ▸ hne, hm ▸ hw, after, ?_, (Bool.or_eq_false_iff.mp hrem).2, hp⟩
  exact fun h => hn (hsub _ (List.mem_append_right _ h))

theorem onLine_of_ofChars {cs : List Char} {i : Instruction} (hn : '\n' ∉ cs)
    (h : ofChars cs = .instruction i) : OnLine i := by
  unfold ofChars at h
  rw [spanDigits, List.span_eq_takeWhile_dropWhile] at h
  simp only at h
  have hsub : (trimStart cs).dropWhile Char.isDigit <:+ cs :=
    (List.dropWhile_suffix _).trans (trimStart_suffix cs)
  split at h
  · cases h
  · split at h
    · exact onLine_of_ofBody (fun hm => hn (hsub.subset hm)) h
    · cases h

namespace OnLine

variable {i : Instruction} (h : OnLine i)
include h

theorem word_firm : ∀ c ∈ i.mnemonic.toList, isBlank c = false := fun c hc =>
  isBlank_of_isWordChar (h.word c hc)

theorem body_firm : Firm (body i) ∧ body i ≠ [] := by
  obtain ⟨cs, -, -, hps⟩ := h.after
  unfold body
  rw [hps]
  refine ⟨?_, fun hb => h.word_ne (List.append_eq_nil_iff.mp hb).1⟩
  by_cases hnil : params cs = []
  · rw [hnil]
    intro c hc
    refine h.word_firm c (List.mem_of_getLast? ?_)
    simpa [listed, joined] using hc
  · have hmem : ∀ p ∈ params cs, Firm p ∧ p ≠ [] := by
      intro p hp
      obtain ⟨f, -, rfl, hne⟩ := mem_params hp
      exact ⟨firm_trimEnd _, hne⟩
    obtain ⟨hfirm, hne⟩ := firm_listed hnil hmem
    exact hfirm.append hne _

theorem display_firm : Firm i.display.toList := by
  obtain ⟨hfirm, hne⟩ := h.body_firm
  rw [toList_display, List.append_cons]
  exact hfirm.append hne _

theorem not_mem_display : '\n' ∉ i.display.toList := by
  intro hm
  have hb : isBlank '\n' = true := by decide
  rw [toList_display, List.mem_append, List.mem_cons, body, List.mem_append] at hm
  rcases hm with hm | hm | hm | hm
  · have hd := isBlank_of_isDigit (Nat.isDigit_of_mem_toDigits (by decide) (by decide) hm)
    rw [hb] at hd
    cases hd
  · exact absurd hm (by decide)
  · have hw := h.word_firm _ hm
    rw [hb] at hw
    cases hw
  · obtain ⟨cs, hn, -, hps⟩ := h.after
    rw [hps] at hm
    rcases mem_joined hm with hm | ⟨f, hf, hm⟩
    · exact absurd hm (by decide)
    · obtain ⟨p, hp, rfl⟩ := List.mem_map.mp hf
      rcases List.mem_cons.mp hm with hm | hm
      · exact absurd hm (by decide)
      · exact hn ((infix_of_mem_params hp).subset hm)

theorem trimStart_body : trimStart (' ' :: body i) = body i := by
  obtain ⟨c, cs, hcs⟩ := List.exists_cons_of_ne_nil h.word_ne
  have hc : isBlank c = false := h.word_firm c (hcs ▸ List.mem_cons_self)
  rw [trimStart_cons_blank rfl, body, hcs]
  exact trimStart_cons hc _

/-- An instruction is read from its own text unless a comment begins there. -/
theorem ofBody_body_iff :
    ofBody i.line (' ' :: body i) = .instruction i ↔ hasRemark true (body i) = false := by
  constructor
  · -- a comment would take ink away that the instruction has
    intro hr
    rw [← Bool.not_eq_true]
    intro hrem
    have hlt := ink_withoutRemark_lt hrem
    obtain ⟨word, after, hsplit, -, -, -, hm, hp⟩ := ofBody_eq_instruction hr
    rw [h.trimStart_body] at hsplit
    rw [hsplit, ink_append, ← ink_params after, ← hp, ← hm, body, ink_append, ink_listed] at hlt
    exact Nat.lt_irrefl _ hlt
  · intro hrem
    obtain ⟨cs, -, -, hps⟩ := h.after
    have hbody : withoutRemark (trimStart (' ' :: body i)) =
        i.mnemonic.toList ++ listed (i.params.map String.toList) := by
      rw [h.trimStart_body, withoutRemark_of_not hrem, body]
    have hhead : ∀ c, (listed (i.params.map String.toList)).head? = some c → isBlank c = true := by
      intro c hc
      by_cases hnil : i.params.map String.toList = []
      · rw [hnil] at hc
        cases hc
      · rw [listed_eq hnil] at hc
        cases hc
        decide
    rw [ofBody_word i.line hbody h.word_ne h.word hhead]
    refine congrArg _ (Instruction.ext rfl String.ofList_toList ?_)
    show (params (listed (i.params.map String.toList))).map String.ofList = i.params
    rw [hps, params_listed_params, ← hps, List.map_map]
    simp [Function.comp_def]

/-- The mnemonic begins a comment if it is the word of comments and something follows. -/
theorem remark_prefix_body :
    remark <+: body i ↔ i.mnemonic = "REM" ∧ i.params ≠ [] := by
  constructor
  · rintro ⟨rest, hrest⟩
    by_cases hnil : i.params = []
    · have hm : body i = i.mnemonic.toList := by simp [body, hnil, listed, joined]
      have hsp : isBlank ' ' = false :=
        h.word_firm ' ' (hm ▸ hrest ▸ List.mem_append_left rest (by decide))
      cases hsp
    · refine ⟨?_, hnil⟩
      rw [body, listed_eq (by simpa using hnil)] at hrest
      -- on both sides the word ends at the first blank
      have hspan (u v : List Char) (hu : ∀ c ∈ u, isBlank c = false) :
          (u ++ ' ' :: v).span (fun c => !isBlank c) = (u, ' ' :: v) :=
        span_append (by simpa using hu) fun c hc => by cases hc; decide
      have hrem : ∀ c ∈ ['R', 'E', 'M'], isBlank c = false := by
        intro c hc
        simp only [List.mem_cons, List.not_mem_nil, or_false] at hc
        rcases hc with rfl | rfl | rfl <;> rfl
      have hl := hspan ['R', 'E', 'M'] rest hrem
      rw [show ['R', 'E', 'M'] ++ ' ' :: rest = remark ++ rest from rfl, hrest,
        hspan _ _ h.word_firm] at hl
      exact String.toList_inj.mp ((Prod.mk.inj hl).1.trans (by decide))
  · rintro ⟨hm, hne⟩
    rw [body, listed_eq (by simpa using hne), hm]
    exact ⟨_, rfl⟩

/-- Where a comment begins in the text of an instruction from a line. -/
theorem hasRemark_body_iff : hasRemark true (body i) = false ↔
    (∀ q ∈ i.params, ¬ remark <+: q.toList) ∧ ¬ (i.mnemonic = "REM" ∧ i.params ≠ []) := by
  obtain ⟨cs, -, hcs, hps⟩ := h.after
  have hinner : ∀ q ∈ i.params, hasRemark false q.toList = false := by
    intro q hq
    rw [← Bool.not_eq_true]
    intro hrem
    have hmem : q.toList ∈ params cs := hps ▸ List.mem_map_of_mem hq
    rw [hasRemark_of_isInfix (infix_of_mem_params hmem) hrem false] at hcs
    cases hcs
  have hword := hasRemark_word_append h.word_ne h.word_firm true
    (listed (i.params.map String.toList))
  rw [body, hword, Bool.true_and, hasRemark_listed, Bool.or_eq_false_iff, and_comm,
    ← Bool.not_eq_true, ← Bool.not_eq_true, List.isPrefixOf_iff_prefix]
  refine and_congr ?_ (not_congr h.remark_prefix_body)
  rw [List.any_map, List.any_eq_true]
  constructor
  · intro hno q hq hpre
    refine hno ⟨q, hq, ?_⟩
    show hasRemark true q.toList = true
    rw [hasRemark_true, Bool.or_eq_true, List.isPrefixOf_iff_prefix]
    exact .inl hpre
  · rintro hno ⟨q, hq, hrem⟩
    have hrem : hasRemark true q.toList = true := hrem
    rw [hasRemark_true, hinner q hq, Bool.or_false, List.isPrefixOf_iff_prefix] at hrem
    exact hno q hq hrem

end OnLine

/-- What the line of an instruction in a listing holds. -/
def reread (i : Instruction) : Option Instruction := instruction? (ofChars i.display.toList)

theorem reread_eq_some_iff {i j : Instruction} :
    reread i = some j ↔ ofBody i.line (' ' :: body i) = .instruction j := by
  rw [reread, toList_display, ofChars_digits]
  cases ofBody i.line (' ' :: body i) <;> simp [instruction?]

theorem line_of_reread {i j : Instruction} (h : reread i = some j) : j.line = i.line := by
  obtain ⟨_, _, -, -, -, hline, -⟩ := ofBody_eq_instruction (reread_eq_some_iff.mp h)
  exact hline

end SourceLine

namespace Program

open SourceLine

/-! ### Reading a listing -/

theorem filterMap_reread {is : List Instruction} (h : ∀ i ∈ is, reread i = some i) :
    is.filterMap reread = is := by
  induction is with
  | nil => rfl
  | cons i is ih =>
    rw [List.filterMap_cons_some (h i List.mem_cons_self),
      ih fun j hj => h j (List.mem_cons_of_mem _ hj)]

theorem onLine_of_mem_ofSource {source : String} {i : Instruction}
    (h : i ∈ (ofSource source).toList) : OnLine i := by
  rw [ofSource, toList_ofInstructions] at h
  obtain ⟨l, hl, hi⟩ := List.mem_filterMap.mp (mem_of_mem_arrange h)
  obtain ⟨cs, hcs, rfl⟩ := List.mem_map.mp hl
  refine onLine_of_ofChars (Text.not_mem_of_mem_lines hcs) ?_
  cases hof : ofChars cs <;> simp_all [instruction?]

/-- A listing is read line by line. -/
theorem ofSource_display {p : Program} (hp : ∀ i ∈ p.toList, OnLine i) :
    ofSource p.display = ofInstructions (p.toList.filterMap reread) := by
  have hlist : p.display.toList =
      (p.toList.map fun i => i.display.toList).flatMap (· ++ ['\n']) := by
    simp [display, String.toList_join, List.flatMap_map]
  have hlines : Text.lines p.display.toList = p.toList.map fun i => i.display.toList := by
    rw [hlist]
    refine Text.lines_flatMap fun l hl => ?_
    obtain ⟨i, hi, rfl⟩ := List.mem_map.mp hl
    exact ⟨(hp i hi).not_mem_display, (hp i hi).display_firm⟩
  rw [ofSource, SourceLine.all, hlines, List.map_map, List.filterMap_map]
  rfl

/-- A program is read back from its listing if each of its instructions is. An instruction that is
not read back from its own line is read from no other, since lines keep their numbers. -/
theorem ofInstructions_reread_iff (p : Program) :
    ofInstructions (p.toList.filterMap reread) = p ↔ ∀ i ∈ p.toList, reread i = some i := by
  constructor
  · intro h i hi
    have hmem : i ∈ p.toList.filterMap reread := by
      refine mem_of_mem_arrange ?_
      rw [← toList_ofInstructions, h]
      exact hi
    obtain ⟨j, hj, hji⟩ := List.mem_filterMap.mp hmem
    rwa [← eq_of_line p.ascending hi hj (line_of_reread hji)] at hji
  · intro h
    refine eq_of_toList ?_
    rw [toList_ofInstructions, filterMap_reread h]
    exact arrange_eq_self p.ascending

/-- A program from a text is read back from its listing if and only if none of its parameters
begins with the word of comments and a space and no instruction with that word for its mnemonic
has parameters. -/
theorem ofSource_display_iff (source : String) :
    ofSource (ofSource source).display = ofSource source ↔
      ∀ i ∈ (ofSource source).toList,
        (∀ q ∈ i.params, ¬ "REM ".toList <+: q.toList) ∧
          ¬ (i.mnemonic = "REM" ∧ i.params ≠ []) := by
  have hline : ∀ i ∈ (ofSource source).toList, OnLine i := fun i => onLine_of_mem_ofSource
  rw [ofSource_display hline, ofInstructions_reread_iff]
  refine forall₂_congr fun i hi => ?_
  rw [reread_eq_some_iff, (hline i hi).ofBody_body_iff, (hline i hi).hasRemark_body_iff]
  rfl

end Program

end Stackline
