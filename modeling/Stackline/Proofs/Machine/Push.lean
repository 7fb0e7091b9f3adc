import Stackline.Proofs.Literal.Shape
import Stackline.Proofs.Machine.Fault
import Stackline.Proofs.SourceLine.Protected

/-!
# Pushing literals

The parameters of a `PUSH` are cut apart before they are read as literals, and the two do not agree
on quotes: where parameters are cut, a quote inside a text would be written twice, and in a literal
it is written `\"`.  `step_push_joined` says when literals that are written one after another are
read back one by one: each has to stand among the others, and all of them do as long as none has a
quote inside.  Then a `PUSH` pushes their values.  `params_quoteWithin` is a literal that is cut in
two.
-/

namespace Stackline

open Text

/-! ### Literals in a row -/

namespace SourceLine

/-- A literal without a quote inside: a plain word or number, or a text between two quotes. -/
def Unescaped (p : List Char) : Prop :=
  (∀ c ∈ p, Literal.Bare c) ∨ ∃ b, p = '"' :: b ++ ['"'] ∧ '"' ∉ b

theorem Unescaped.count {p : List Char} (h : Unescaped p) : p.count '"' % 2 = 0 := by
  rcases h with h | ⟨b, rfl, hb⟩
  · rw [List.count_eq_zero_of_not_mem fun hq => (h _ hq).1 rfl]
  · simp [List.count_append, List.count_eq_zero_of_not_mem hb]

theorem count_flatten_of_unescaped {ps : List (List Char)} (h : ∀ p ∈ ps, Unescaped p) :
    ps.flatten.count '"' % 2 = 0 := by
  induction ps with
  | nil => rfl
  | cons p ps ih =>
    have hp := (h p List.mem_cons_self).count
    have hps := ih fun q hq => h q (List.mem_cons_of_mem _ hq)
    rw [List.flatten_cons, List.count_append]
    omega

/-- A comma in a text between quotes is inside of them. -/
theorem comma_inside {b x y : List Char} (h : '"' :: b ++ ['"'] = x ++ ',' :: y) :
    ∃ x' y', x = '"' :: x' ∧ y = y' ++ ['"'] ∧ b = x' ++ ',' :: y' := by
  cases x with
  | nil => cases h
  | cons c x' =>
    obtain ⟨rfl, -⟩ := List.cons.inj h
    rcases List.eq_nil_or_concat y with rfl | ⟨y', d, rfl⟩
    · exact absurd (List.append_inj' h rfl).2 (by decide)
    · have hlast : '"' :: b ++ ['"'] = ('"' :: (x' ++ ',' :: y')) ++ [d] := by simpa using h
      obtain ⟨hb, hd⟩ := List.append_inj' hlast rfl
      exact ⟨x', y', rfl, by rw [hd, List.concat_eq_append], (List.cons.inj hb).2⟩

/-- After an even number of quotes, such a literal stands whatever follows it. -/
theorem Unescaped.stands {before p : List Char} (hp : Unescaped p)
    (hbefore : before.count '"' % 2 = 0) (after : List (List Char)) : Stands before p after := by
  have hcount := hp.count
  refine ⟨fun x y hxy => ?_, fun hodd => ?_⟩
  · rcases hp with hbare | ⟨b, rfl, hb⟩
    · exact absurd rfl (hbare ',' (by simp [hxy])).2
    · obtain ⟨x', y', rfl, rfl, rfl⟩ := comma_inside hxy
      simp only [List.mem_append, List.mem_cons, not_or] at hb
      have hx : (before ++ '"' :: x').count '"' = before.count '"' + 1 := by
        simp [List.count_append, List.count_eq_zero_of_not_mem hb.1]
      -- the closing quote is a run of its own
      refine ⟨by omega, .inl ⟨y', 1, [], by simp, rfl, fun h => ?_, by simp⟩⟩
      exact hb.2.2 (List.mem_of_getLast? h)
  · rw [List.count_append] at hodd
    omega

/-- Literals without a quote inside stand among each other. -/
theorem stands_of_unescaped {ps : List (List Char)} (h : ∀ p ∈ ps, Unescaped p) :
    ∀ u p v, ps = u ++ p :: v → Stands u.flatten p v := by
  rintro u p v rfl
  have hu : ∀ q ∈ u, Unescaped q := fun q hq => h q (List.mem_append_left _ hq)
  exact (h p (by simp)).stands (count_flatten_of_unescaped hu) v

/-- A literal with at most two quotes has none inside. -/
theorem unescaped_of_readTrimmed {p : List Char} {v : Value} (htrim : trim p = p)
    (hread : Literal.readTrimmed p = .ok v) (hquotes : p.count '"' ≤ 2) : Unescaped p := by
  rcases Literal.shape_of_readTrimmed htrim hread with h | ⟨b, rfl⟩
  · exact .inl h
  · refine .inr ⟨b, rfl, fun hb => ?_⟩
    have hpos := List.count_pos_iff.mpr hb
    simp only [List.cons_append, List.count_cons, List.count_append, List.count_nil,
      beq_self_eq_true, if_true] at hquotes
    omega

end SourceLine

/-! ### The step -/

namespace Machine

open SourceLine

variable {m : Machine} {i : Instruction}

theorem exists_of_map_read {ls : List String} {vs : List Value}
    (h : ls.map Literal.read = vs.map .ok) : ∀ l ∈ ls, ∃ v, Literal.read l = .ok v := by
  intro l hl
  have hmem : Literal.read l ∈ vs.map .ok := h ▸ List.mem_map_of_mem hl
  obtain ⟨v, -, hv⟩ := List.mem_map.mp hmem
  exact ⟨v, hv.symm⟩

/-- A `PUSH` of literals pushes their values, the last on top. -/
theorem step_push_of_read {vs : List Value} (hi : m.fetch? = some i) (ho : i.opcode = some .push)
    (hread : i.params.map Literal.read = vs.map .ok)
    (hroom : m.operands.size + vs.length ≤ Stack.capacity) :
    step m = .ok () { m with
      pc := m.pc + 1
      branched := false
      current := some i
      operands := .ofEntries (vs.reverse ++ m.operands.entries)
      log := m.log.push (.step m.pc i.line i.mnemonic) } := by
  have hk : m.killed = false := (isRunning_iff.mp (fetch?_eq_some_iff.mp hi).1).1
  obtain ⟨vs', hlit, hvs'⟩ := literals_ok (exists_of_map_read hread) (m.begin i)
  obtain rfl : vs' = vs :=
    (List.map_inj_right fun _ _ => Except.ok.inj).mp (hvs'.symm.trans hread)
  have hr : execute .push (m.begin i) =
      .ok () ((m.begin i).withOperands (vs'.reverse ++ m.operands.entries)) :=
    (pushParams_of_some rfl).trans ((bind_of_ok hlit).trans (pushAll_of_le hroom))
  exact step_of_unbranched hi ho hr rfl hk

/-- **When literals are read back.**  Literals that are written one after another are read as
parameters one by one exactly if each of them stands among the others, and so they are if none has a
quote inside.  A `PUSH` of parameters that are read so pushes the values of the literals in order
and changes nothing else. -/
theorem step_push_joined {ls : List String} {vs : List Value}
    (htrim : ∀ l ∈ ls, trim l.toList = l.toList) (hread : ls.map Literal.read = vs.map .ok) :
    (params (", ".intercalate ls).toList = ls.map String.toList ↔
      ∀ u l v, ls.map String.toList = u ++ l :: v → Stands u.flatten l v) ∧
    ((∀ l ∈ ls, l.toList.count '"' ≤ 2) →
      params (", ".intercalate ls).toList = ls.map String.toList) ∧
    (params (", ".intercalate ls).toList = ls.map String.toList →
      ∀ m i, m.fetch? = some i → i.opcode = some .push →
        i.params = (params (", ".intercalate ls).toList).map .ofList →
        m.operands.size + vs.length ≤ Stack.capacity →
        step m = .ok () { m with
          pc := m.pc + 1
          branched := false
          current := some i
          operands := .ofEntries (vs.reverse ++ m.operands.entries)
          log := m.log.push (.step m.pc i.line i.mnemonic) }) := by
  have hvalue : ∀ l ∈ ls, ∃ v, Literal.readTrimmed l.toList = .ok v := fun l hl => by
    obtain ⟨v, hv⟩ := exists_of_map_read hread l hl
    rw [Literal.read, htrim l hl] at hv
    exact ⟨v, hv⟩
  have hpieces : ∀ p ∈ ls.map String.toList, trim p = p ∧ p ≠ [] := by
    intro p hp
    obtain ⟨l, hl, rfl⟩ := List.mem_map.mp hp
    obtain ⟨v, hv⟩ := hvalue l hl
    refine ⟨htrim l hl, fun hnil => ?_⟩
    rw [hnil] at hv
    cases hv
  have hjoined : (", ".intercalate ls).toList = [',', ' '].intercalate (ls.map String.toList) :=
    String.toList_intercalate
  rw [hjoined]
  refine ⟨params_intercalate_iff hpieces, fun hquotes => ?_, fun hparams m i hi ho hip hroom => ?_⟩
  · refine (params_intercalate_iff hpieces).mpr (stands_of_unescaped fun p hp => ?_)
    obtain ⟨l, hl, rfl⟩ := List.mem_map.mp hp
    obtain ⟨v, hv⟩ := hvalue l hl
    exact unescaped_of_readTrimmed (htrim l hl) hv (hquotes l hl)
  · refine step_push_of_read hi ho ?_ hroom
    have hls : i.params = ls := by rw [hip, hparams]; simp
    rw [hls, hread]

/-- A `PUSH` of a text with a comma in it, a number, a text that is a comma and a word. -/
def commasLine : Instruction :=
  .ofMnemonic 10 "PUSH" ["\"a, b\"", "-7", "\",\"", "NULL"]

def commasPush : Machine := start (.ofInstructions [commasLine]) (.ofText "") .capture

theorem step_push_joined_commasPush :
    (params "\"a, b\", -7, \",\", NULL".toList).map String.ofList = commasLine.params ∧
    ∃ m', step commasPush = .ok () m' ∧
      m'.operands.entries = [.null, .text ",", .integer (-7), .text "a, b"] := by
  have hread : commasLine.params.map Literal.read =
      [.text "a, b", .integer (-7), .text ",", .null].map .ok := by decide +kernel
  obtain ⟨-, hparams, hstep⟩ := step_push_joined (by decide +kernel) hread
  have hback := hparams (by decide +kernel)
  have hsame : commasLine.params =
      (params (", ".intercalate commasLine.params).toList).map .ofList := by rw [hback]; rfl
  have hpush := hstep hback commasPush commasLine (by decide +kernel) (by decide +kernel) hsame
  exact ⟨hsame.symm, _, hpush (by decide), rfl⟩

/-- A literal whose text has quotes and a comma in it. -/
def quoteWithin : String := "\"say \\\"hi, there\\\"\""

/-- The literal is accepted, but as a parameter it is cut in two, and its `PUSH` fails. -/
theorem params_quoteWithin :
    trim quoteWithin.toList = quoteWithin.toList ∧
    Literal.read quoteWithin = .ok (.text "say \"hi, there\"") ∧
    (params (", ".intercalate [quoteWithin]).toList).map String.ofList =
      ["\"say \\\"hi", "there\\\"\""] ∧
    ∀ m i, m.fetch? = some i → i.opcode = some .push →
      i.params = (params (", ".intercalate [quoteWithin]).toList).map String.ofList →
      ∃ e m', step m = .error e m' ∧ e.kind = .syntaxError := by
  have hcut : (params (", ".intercalate [quoteWithin]).toList).map String.ofList =
      ["\"say \\\"hi", "there\\\"\""] := by decide +kernel
  have hbad : Literal.read "there\\\"\"" =
      .error (.malformed "there\\\"\"" ⟨.expectedWord, 1, 2⟩) := by decide +kernel
  refine ⟨by decide +kernel, by decide +kernel, hcut, fun m i hi ho hip => ?_⟩
  have hmem : "there\\\"\"" ∈ i.params := by rw [hip, hcut]; exact .tail _ (.head _)
  obtain ⟨e, m', hstep, hkind, -⟩ := step_push_of_malformed hi ho hmem hbad
  exact ⟨e, m', hstep, hkind⟩

end Machine

end Stackline
