import Stackline.Input.Source

/-!
# What a source delivers

`s.answer k` is what a source says when it is asked for a character for the `k`-th time, counted from
zero, and `s.Delivers l` says that these answers are the characters of `l` and then the end of input
for ever.  A text delivers its characters, and so do its bytes: they are cut into lines at the byte
of the newline, which is part of no other character (`eq_newline_of_mem`), so every line is made of
whole characters (`spanLine_encode`) and is decoded to just these.
-/

namespace Stackline

/-! ### Lines of bytes -/

namespace LineReader

theorem encode_cons (c : Char) (cs : List Char) :
    encode (c :: cs) = String.utf8EncodeChar c ++ encode cs := by
  simp [encode]

theorem decode?_encode (cs : List Char) : decode? (encode cs) = some cs := by
  have hvalid : (encode cs).toByteArray.IsValidUTF8 := ⟨cs, rfl⟩
  have hs : String.fromUTF8? (encode cs).toByteArray = some (String.ofList cs) := by
    unfold String.fromUTF8?
    rw [dif_pos hvalid]
    rfl
  rw [decode?, hs, Option.map_some, String.toList_ofList]

theorem utf8EncodeChar_ascii {c : Char} (hc : c.toNat ≤ 127) :
    String.utf8EncodeChar c = [UInt8.ofNat c.toNat] := if_pos hc

/-- All bytes of a character beyond ASCII have their highest bit set. -/
theorem le_of_mem_utf8EncodeChar {c : Char} (hc : 127 < c.toNat) {b : UInt8}
    (hb : b ∈ String.utf8EncodeChar c) : 128 ≤ b.toNat := by
  unfold String.utf8EncodeChar at hb
  simp only [show ¬c.val.toNat ≤ 127 from Nat.not_le.mpr hc, if_false] at hb
  split at hb
  · simp only [List.mem_cons, List.not_mem_nil, or_false] at hb
    rcases hb with rfl | rfl <;> rw [UInt8.toNat_ofNat'] <;> omega
  · split at hb
    · simp only [List.mem_cons, List.not_mem_nil, or_false] at hb
      rcases hb with rfl | rfl | rfl <;> rw [UInt8.toNat_ofNat'] <;> omega
    · simp only [List.mem_cons, List.not_mem_nil, or_false] at hb
      rcases hb with rfl | rfl | rfl | rfl <;> rw [UInt8.toNat_ofNat'] <;> omega

/-- The byte of the newline is part of no other character. -/
theorem eq_newline_of_mem {c : Char} (h : 10 ∈ String.utf8EncodeChar c) : c = '\n' := by
  have hten : (10 : UInt8).toNat = 10 := rfl
  have hc : c.toNat ≤ 127 := by
    rw [← Nat.not_lt]
    intro hgt
    have := le_of_mem_utf8EncodeChar hgt h
    omega
  rw [utf8EncodeChar_ascii hc, List.mem_singleton] at h
  have hval := congrArg UInt8.toNat h
  rw [UInt8.toNat_ofNat'] at hval
  refine Char.ext (UInt32.toNat_inj.mp ?_)
  show c.toNat = 10
  omega

theorem spanLine_of_not_mem {bs : List UInt8} (h : 10 ∉ bs) (rest : List UInt8) :
    spanLine (bs ++ rest) = (bs ++ (spanLine rest).1, (spanLine rest).2) := by
  induction bs with
  | nil => rfl
  | cons b bs ih =>
    rw [List.mem_cons, not_or] at h
    rw [List.cons_append, spanLine, if_neg (Ne.symm h.1), ih h.2]
    rfl

/-- Cutting the bytes of characters at a newline cuts between characters. -/
theorem spanLine_encode (cs : List Char) : ∃ line rest, cs = line ++ rest ∧
    spanLine (encode cs) = (encode line, encode rest) ∧ (cs ≠ [] → line ≠ []) := by
  induction cs with
  | nil => exact ⟨[], [], rfl, rfl, id⟩
  | cons c cs ih =>
    rw [encode_cons]
    by_cases hc : c = '\n'
    · subst hc
      exact ⟨['\n'], cs, rfl, rfl, fun _ => by simp⟩
    · obtain ⟨line, rest, hcs, hspan, -⟩ := ih
      have hnot : 10 ∉ String.utf8EncodeChar c := fun h => hc (eq_newline_of_mem h)
      refine ⟨c :: line, rest, by rw [hcs, List.cons_append], ?_, fun _ => by simp⟩
      rw [spanLine_of_not_mem hnot, hspan, encode_cons]

theorem isEmpty_encode_cons (c : Char) (cs : List Char) : (encode (c :: cs)).isEmpty = false := by
  have hlen := length_le_encode (c :: cs)
  cases hb : encode (c :: cs) with
  | nil =>
    rw [hb] at hlen
    cases hlen
  | cons b bs => rfl

/-- When a line is used up the next one is read, and its first character given. -/
theorem readChar_encode {cs : List Char} (h : cs ≠ []) : ∃ c line rest, cs = c :: line ++ rest ∧
    readChar ⟨encode cs, []⟩ = (.ok (some c), ⟨encode rest, line⟩) := by
  obtain ⟨line, rest, hsplit, hspan, hne⟩ := spanLine_encode cs
  obtain ⟨d, ds, rfl⟩ := List.exists_cons_of_ne_nil h
  obtain ⟨c, line, rfl⟩ := List.exists_cons_of_ne_nil (hne h)
  refine ⟨c, line, rest, hsplit, ?_⟩
  simp [readChar, isEmpty_encode_cons, hspan, decode?_encode]

end LineReader

/-! ### Answers -/

namespace Source

variable {s : Source} {l : List Char}

/-- What a source says when it is asked for a character for the `k`-th time. -/
def answer (s : Source) : (k : Nat) → Except Failure (Option Char)
  | 0 => s.readChar.1
  | k + 1 => s.readChar.2.answer k

/-- The source delivers the characters of `l`, and then it is at its end for ever. -/
def Delivers (s : Source) (l : List Char) : Prop := ∀ k, s.answer k = .ok l[k]?

theorem Delivers.readChar (h : s.Delivers l) :
    s.readChar.1 = .ok l.head? ∧ s.readChar.2.Delivers l.tail := by
  refine ⟨by simpa [answer, List.head?_eq_getElem?] using h 0, fun k => ?_⟩
  simpa [answer] using h (k + 1)

/-- A source delivers what its states stand for, if each gives the first character and then stands
for the others.  The induction is on the number of the answer. -/
theorem delivers_of_step {R : Source → List Char → Prop}
    (hstep : ∀ s l, R s l → s.readChar.1 = .ok l.head? ∧ R s.readChar.2 l.tail) (h : R s l) :
    s.Delivers l := by
  intro k
  induction k generalizing s l with
  | zero => simpa [answer, List.head?_eq_getElem?] using (hstep s l h).1
  | succ k ih => simpa [answer] using ih (hstep s l h).2

theorem delivers_text (cs : List Char) (prompting : Prompting) :
    Delivers ⟨.text cs, prompting⟩ cs := by
  refine delivers_of_step (R := fun s l => s = ⟨.text l, prompting⟩) ?_ rfl
  rintro _ l rfl
  cases l with
  | nil => exact ⟨rfl, rfl⟩
  | cons c l => exact ⟨rfl, rfl⟩

/-- A reader delivers what is left of its line, and then the characters of its bytes. -/
theorem delivers_lines (cs ds : List Char) (prompting : Prompting) :
    Delivers ⟨.lines ⟨LineReader.encode ds, cs⟩, prompting⟩ (cs ++ ds) := by
  refine delivers_of_step (R := fun s l => ∃ cs ds,
    s = ⟨.lines ⟨LineReader.encode ds, cs⟩, prompting⟩ ∧ l = cs ++ ds) ?_ ⟨cs, ds, rfl, rfl⟩
  rintro _ _ ⟨cs, ds, rfl, rfl⟩
  cases cs with
  | cons c cs => exact ⟨rfl, cs, ds, rfl, rfl⟩
  | nil =>
    by_cases hds : ds = []
    · subst hds
      exact ⟨rfl, [], [], rfl, rfl⟩
    · obtain ⟨c, line, rest, rfl, hread⟩ := LineReader.readChar_encode hds
      refine ⟨congrArg Prod.fst hread, line, rest, ?_, rfl⟩
      exact congrArg (fun a => Source.mk (.lines a.2) prompting) hread

/-- **The two sources are interchangeable.**  Asked for a character for the `k`-th time, the bytes of
a text and the text itself give the same answer: its `k`-th character, or the end of input. -/
theorem answer_ofBytes_toUTF8 (t : String) (k : Nat) :
    (ofBytes t.toUTF8).answer k = (ofText t).answer k ∧ (ofText t).answer k = .ok t.toList[k]? := by
  have htext : (ofText t).Delivers t.toList := delivers_text t.toList .ignored
  have hbytes : (ofBytes t.toUTF8).Delivers t.toList := by
    have hencode : t.toUTF8.data.toList = LineReader.encode t.toList := by
      rw [String.toUTF8_eq_toByteArray, ← String.utf8Encode_toList]
      exact List.toList_data_toByteArray
    have hlines := delivers_lines [] t.toList .ignored
    rw [← hencode] at hlines
    exact hlines
  exact ⟨(hbytes k).trans (htext k).symm, htext k⟩

end Source

end Stackline
