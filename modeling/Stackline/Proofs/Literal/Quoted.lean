import Mathlib.Data.List.Forall2
import Stackline.Literal.Quoted

/-!
# What stands in quotes

The body of a text in quotes is a row of items, each of which denotes one character: the character
itself, an escape, a code unit in hexadecimal or a pair of them (`Item`).  The reader accepts
exactly the rows of items that a quote ends, and gives what they denote
(`quotedBody_eq_ok_iff`).  Every character has an item (`item_spelled`).
-/

namespace Stackline.Literal

variable {cs rest t : List Char}

/-! ### Code units -/

/-- A character is the hexadecimal digit of a value, in either case. -/
def IsHex (c : Char) (v : Nat) : Prop := v < 16 ∧ (c = v.digitChar ∨ c = v.digitChar.toUpper)

instance (c : Char) (v : Nat) : Decidable (IsHex c v) := inferInstanceAs (Decidable (_ ∧ _))

theorem hexValue_digitChar :
    ∀ v < 16, hexValue v.digitChar = some v ∧ hexValue v.digitChar.toUpper = some v := by
  decide

theorem toNat_lt_of_hexValue {c : Char} {v : Nat} (h : hexValue c = some v) : c.toNat < 103 := by
  unfold hexValue at h
  split at h
  · next hc =>
    have := (Char.isDigit_iff_toNat.mp hc).2
    simp at this
    omega
  split at h
  · next hc => exact Nat.lt_succ_of_le (Char.le_def.mp hc.2)
  split at h
  · next hc =>
    have : c.toNat ≤ 'F'.toNat := Char.le_def.mp hc.2
    simp at this
    omega
  · cases h

/-- Every character with a value is its digit, which is checked for each of them. -/
theorem isHex_of_ascii : ∀ k < 103, ∀ v ∈ hexValue (Char.ofNat k), IsHex (Char.ofNat k) v := by
  decide +kernel

theorem hexValue_eq_some_iff {c : Char} {v : Nat} : hexValue c = some v ↔ IsHex c v := by
  constructor
  · intro h
    have hc := isHex_of_ascii c.toNat (toNat_lt_of_hexValue h) v
    rw [Char.ofNat_toNat] at hc
    exact hc h
  · rintro ⟨hv, rfl | rfl⟩
    · exact (hexValue_digitChar v hv).1
    · exact (hexValue_digitChar v hv).2

/-- Four characters write a code unit in hexadecimal. -/
inductive CodeUnit : List Char → Nat → Prop
  | mk {a b c d : Char} {w x y z : Nat} (ha : IsHex a w) (hb : IsHex b x) (hc : IsHex c y)
      (hd : IsHex d z) : CodeUnit [a, b, c, d] (w * 4096 + x * 256 + y * 16 + z)

theorem hexUnit_eq_some_iff {a b c d : Char} {n : Nat} :
    hexUnit a b c d = some n ↔ CodeUnit [a, b, c, d] n := by
  unfold hexUnit
  constructor
  · intro h
    split at h
    · next w x y z ha hb hc hd =>
      have hunit := CodeUnit.mk (hexValue_eq_some_iff.mp ha) (hexValue_eq_some_iff.mp hb)
        (hexValue_eq_some_iff.mp hc) (hexValue_eq_some_iff.mp hd)
      have hn : w * 4096 + x * 256 + y * 16 + z = n := by
        have := Option.some.inj h
        omega
      rwa [hn] at hunit
    · cases h
  · rintro ⟨ha, hb, hc, hd⟩
    rw [hexValue_eq_some_iff.mpr ha, hexValue_eq_some_iff.mpr hb, hexValue_eq_some_iff.mpr hc,
      hexValue_eq_some_iff.mpr hd]
    simp only [Option.some.injEq]
    omega

theorem CodeUnit.exists_hexUnit {ds : List Char} {n : Nat} (h : CodeUnit ds n) :
    ∃ a b c d, ds = [a, b, c, d] ∧ hexUnit a b c d = some n := by
  cases h with
  | mk ha hb hc hd => exact ⟨_, _, _, _, rfl, hexUnit_eq_some_iff.mpr (.mk ha hb hc hd)⟩

theorem CodeUnit.lt {ds : List Char} {n : Nat} (h : CodeUnit ds n) : n < 0x10000 := by
  cases h with
  | mk ha hb hc hd =>
    have := ha.1
    have := hb.1
    have := hc.1
    have := hd.1
    omega

/-! ### Items -/

/-- The escapes of two characters: what follows the backslash, and what they denote. -/
def escapes : List (Char × Char) :=
  [('"', '"'), ('\\', '\\'), ('/', '/'), ('b', '\x08'), ('f', '\x0c'), ('n', '\n'), ('r', '\r'),
   ('t', '\t')]

theorem shortEscape_eq_some_iff {e x : Char} : shortEscape e = some x ↔ (e, x) ∈ escapes := by
  simp only [escapes, List.mem_cons, Prod.mk.injEq, List.not_mem_nil, or_false]
  constructor
  · intro h
    unfold shortEscape at h
    split at h
    · next he =>
      cases h
      rcases he with rfl | rfl | rfl <;> simp
    · repeat' split at h
      all_goals cases h <;> simp_all
  · rintro (⟨rfl, rfl⟩ | ⟨rfl, rfl⟩ | ⟨rfl, rfl⟩ | ⟨rfl, rfl⟩ | ⟨rfl, rfl⟩ | ⟨rfl, rfl⟩ |
      ⟨rfl, rfl⟩ | ⟨rfl, rfl⟩) <;> rfl

/-- A part of a body that denotes one character. -/
inductive Item : List Char → Char → Prop
  /-- Most characters denote themselves. -/
  | plain {c : Char} (hc : 0x20 ≤ c.toNat) (hquote : c ≠ '"') (hslash : c ≠ '\\') : Item [c] c
  | escape {e x : Char} (h : (e, x) ∈ escapes) : Item ['\\', e] x
  /-- A code unit that is a character.  Those of pairs are none. -/
  | unit {ds : List Char} {c : Char} (h : CodeUnit ds c.toNat) : Item ('\\' :: 'u' :: ds) c
  /-- A character beyond the basic plane. -/
  | pair {ds es : List Char} {high low : Nat} {c : Char} (hd : CodeUnit ds high)
      (he : CodeUnit es low) (hhigh : 0xd800 ≤ high ∧ high ≤ 0xdbff)
      (hlow : 0xdc00 ≤ low ∧ low ≤ 0xdfff)
      (hc : c.toNat = 0x10000 + (high - 0xd800) * 0x400 + (low - 0xdc00)) :
      Item ('\\' :: 'u' :: ds ++ '\\' :: 'u' :: es) c

/-- An escape is not mistaken for a code unit. -/
theorem ne_of_mem_escapes {e x : Char} (h : (e, x) ∈ escapes) : e ≠ 'u' := by
  rintro rfl
  rw [← shortEscape_eq_some_iff] at h
  cases h

theorem isLowUnit_eq_true_iff {n : Nat} : isLowUnit n = true ↔ 0xdc00 ≤ n ∧ n ≤ 0xdfff := by
  simp only [isLowUnit, Bool.and_eq_true, decide_eq_true_eq]
  omega

theorem isHighUnit_eq_true_iff {n : Nat} : isHighUnit n = true ↔ 0xd800 ≤ n ∧ n ≤ 0xdbff := by
  simp only [isHighUnit, Bool.and_eq_true, decide_eq_true_eq]
  omega

/-- No character is a code unit of a pair. -/
theorem not_unit_of_pair (c : Char) : isLowUnit c.toNat = false ∧ isHighUnit c.toNat = false := by
  have hvalid : c.toNat < 0xd800 ∨ 0xdfff < c.toNat ∧ c.toNat < 0x110000 := c.valid
  simp only [← Bool.not_eq_true, isLowUnit_eq_true_iff, isHighUnit_eq_true_iff]
  omega

theorem toNat_ofNat_of_valid {n : Nat} (h : n < 0xd800 ∨ 0xdfff < n ∧ n < 0x110000) :
    (Char.ofNat n).toNat = n := by
  have hvalid : n.isValidChar := h
  rw [Char.ofNat, dif_pos hvalid]
  rfl

theorem toNat_ofNat_unit {n : Nat} (h : n < 0x10000) (hlow : ¬ isLowUnit n = true)
    (hhigh : ¬ isHighUnit n = true) : (Char.ofNat n).toNat = n := by
  rw [isLowUnit_eq_true_iff] at hlow
  rw [isHighUnit_eq_true_iff] at hhigh
  exact toNat_ofNat_of_valid (by omega)

theorem toNat_pairChar {high low : Nat} (hhigh : isHighUnit high = true)
    (hlow : isLowUnit low = true) :
    (pairChar high low).toNat = 0x10000 + (high - 0xd800) * 0x400 + (low - 0xdc00) := by
  rw [isHighUnit_eq_true_iff] at hhigh
  rw [isLowUnit_eq_true_iff] at hlow
  exact toNat_ofNat_of_valid (by omega)

/-- An item is read as the character that it denotes. -/
theorem quotedBody_item {p : List Char} {c : Char} (h : Item p c) (cs : List Char) :
    quotedBody (p ++ cs) = consRead c (quotedBody cs) := by
  cases h with
  | plain hc hquote hslash =>
    show quotedBody (c :: cs) = _
    rw [quotedBody.eq_def]
    simp only [hquote, hslash, if_false]
    rw [if_neg (by omega)]
  | @escape e x h =>
    show quotedBody ('\\' :: e :: cs) = _
    rw [quotedBody.eq_def]
    simp [ne_of_mem_escapes h, shortEscape_eq_some_iff.mpr h]
  | unit h =>
    obtain ⟨hlow, hhigh⟩ := not_unit_of_pair c
    obtain ⟨w, x, y, z, rfl, hunit⟩ := h.exists_hexUnit
    show quotedBody ('\\' :: 'u' :: w :: x :: y :: z :: cs) = _
    rw [quotedBody.eq_def]
    simp [hunit, hlow, hhigh]
  | @pair ds es high low _ hd he hhigh hlow hc =>
    obtain ⟨w, x, y, z, rfl, hunit⟩ := hd.exists_hexUnit
    obtain ⟨w', x', y', z', rfl, hunit'⟩ := he.exists_hexUnit
    have hchar : pairChar high low = c := by
      unfold pairChar
      rw [← hc, Char.ofNat_toNat]
    have hnot : isLowUnit high = false := by
      rw [← Bool.not_eq_true, isLowUnit_eq_true_iff]
      omega
    show quotedBody ('\\' :: 'u' :: w :: x :: y :: z ::
      '\\' :: 'u' :: w' :: x' :: y' :: z' :: cs) = _
    rw [quotedBody.eq_def]
    simp [hunit, hunit', hnot, isHighUnit_eq_true_iff.mpr hhigh, isLowUnit_eq_true_iff.mpr hlow,
      hchar]

/-- A row of items up to a quote is read as what they denote. -/
theorem quotedBody_items {items : List (List Char)} (h : List.Forall₂ Item items t)
    (rest : List Char) : quotedBody (items.flatten ++ '"' :: rest) = .ok (t, rest) := by
  induction h with
  | nil =>
    rw [List.flatten_nil, List.nil_append, quotedBody.eq_def]
    rfl
  | cons hitem _ ih =>
    rw [List.flatten_cons, List.append_assoc, quotedBody_item hitem, ih]
    rfl

theorem exists_of_consRead {c : Char} {r : Reading (List Char)} (h : consRead c r = .ok (t, rest)) :
    ∃ t', r = .ok (t', rest) ∧ t = c :: t' := by
  unfold consRead at h
  split at h
  · cases h
    exact ⟨_, rfl, rfl⟩
  · cases h

theorem noHexUnit_ne_ok {α : Type} (cs : List Char) (a : α) : noHexUnit cs ≠ .ok a := by
  unfold noHexUnit
  split <;> nofun

/-- What is read after an item, with the item in front. -/
theorem exists_items_cons {p : List Char} {c : Char} (hitem : Item p c)
    (ih : ∀ t, quotedBody cs = .ok (t, rest) →
      ∃ items, List.Forall₂ Item items t ∧ cs = items.flatten ++ '"' :: rest)
    (h : consRead c (quotedBody cs) = .ok (t, rest)) :
    ∃ items, List.Forall₂ Item items t ∧ p ++ cs = items.flatten ++ '"' :: rest := by
  obtain ⟨t', ht, rfl⟩ := exists_of_consRead h
  obtain ⟨items, hitems, rfl⟩ := ih t' ht
  exact ⟨p :: items, .cons hitem hitems, by simp⟩

/-- What is read up to a quote is a row of items. -/
theorem exists_items (h : quotedBody cs = .ok (t, rest)) :
    ∃ items, List.Forall₂ Item items t ∧ cs = items.flatten ++ '"' :: rest := by
  -- in four cases something is read and more follows; in all others but the end reading stops
  fun_induction quotedBody cs generalizing t with
  | case2 cs =>
    cases h
    exact ⟨[], .nil, rfl⟩
  | case12 a b c d n hn hlow hhigh x y hx hy a' b' c' d' cs m hm hlow' _ ih =>
    obtain rfl : x = '\\' := by simpa using hx
    obtain rfl : y = 'u' := by simpa using hy
    have hunits := Item.pair (hexUnit_eq_some_iff.mp hn) (hexUnit_eq_some_iff.mp hm)
      (isHighUnit_eq_true_iff.mp hhigh) (isLowUnit_eq_true_iff.mp hlow')
      (toNat_pairChar hhigh hlow')
    exact exists_items_cons hunits (fun _ => ih) h
  | case15 a b c d cs n hn hlow hhigh _ ih =>
    have hunit := hexUnit_eq_some_iff.mp hn
    rw [← toNat_ofNat_unit hunit.lt hlow hhigh] at hunit
    exact exists_items_cons (.unit hunit) (fun _ => ih) h
  | case17 e cs he x hx _ ih =>
    exact exists_items_cons (.escape (shortEscape_eq_some_iff.mp hx)) (fun _ => ih) h
  | case20 c cs hquote hslash hc ih =>
    exact exists_items_cons (.plain (by omega) hquote hslash) (fun _ => ih) h
  | case4 | case11 | case14 | case16 => exact absurd h (noHexUnit_ne_ok _ _)
  | _ => cases h

theorem quotedBody_eq_ok_iff : quotedBody cs = .ok (t, rest) ↔
    ∃ items, List.Forall₂ Item items t ∧ cs = items.flatten ++ '"' :: rest := by
  constructor
  · exact exists_items
  · rintro ⟨items, hitems, rfl⟩
    exact quotedBody_items hitems rest

/-! ### Every text can be written -/

/-- An item for a character. -/
def spelled (c : Char) : List Char :=
  if c = '"' ∨ c = '\\' then ['\\', c]
  else if c.toNat < 0x20 then
    ['\\', 'u', '0', '0', (c.toNat / 16).digitChar, (c.toNat % 16).digitChar]
  else [c]

theorem item_spelled (c : Char) : Item (spelled c) c := by
  unfold spelled
  split
  · next hc =>
    refine .escape ?_
    rcases hc with rfl | rfl <;> decide
  split
  · next hc hlt =>
    have hzero : IsHex '0' 0 := by decide
    have hunit := CodeUnit.mk hzero hzero (c := (c.toNat / 16).digitChar) (y := c.toNat / 16)
      ⟨by omega, .inl rfl⟩ (d := (c.toNat % 16).digitChar) (z := c.toNat % 16) ⟨by omega, .inl rfl⟩
    have hn : 0 * 4096 + 0 * 256 + c.toNat / 16 * 16 + c.toNat % 16 = c.toNat := by omega
    rw [hn] at hunit
    exact .unit hunit
  · next hc hlt =>
    rw [not_or] at hc
    exact .plain (by omega) hc.1 hc.2

theorem items_spelled (t : List Char) : List.Forall₂ Item (t.map spelled) t := by
  induction t with
  | nil => exact .nil
  | cons c t ih => exact .cons (item_spelled c) ih

end Stackline.Literal
