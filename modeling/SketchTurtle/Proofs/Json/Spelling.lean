/-
Texts in documents and log lines are read back.

A character that is written as itself, by a letter, by its number or by the
numbers of two surrogates is read as that character (`isRead_escape`,
`isRead_escapeAscii`), so the quoted form of every text is read as the text, and
what follows the closing quote is left (`IsRead.spelled`).
-/
import SketchTurtle.Json.Reader
import SketchTurtle.Json.Writer

namespace SketchTurtle.Json

/-! ## Hexadecimal digits -/

/-- The number written by hexadecimal digits. -/
def hexNumber? (ds : List Char) : Option Nat :=
  ds.foldlM (fun n c => (Text.hexValue? c).map (16 * n + ·)) 0

theorem hexNumber?_append_singleton (ds : List Char) (c : Char) :
    hexNumber? (ds ++ [c]) =
      (hexNumber? ds).bind fun n => (Text.hexValue? c).map (16 * n + ·) := by
  simp [hexNumber?]

theorem hexValue?_digitChar : ∀ n < 16, Text.hexValue? n.digitChar = some n := by
  decide

theorem hexNumber?_toDigits (n : Nat) : hexNumber? (Nat.toDigits 16 n) = some n := by
  induction n using Nat.strongRecOn with
  | ind n ih =>
    rw [Nat.toDigits_eq_if (by decide)]
    split
    · next h => simp [hexNumber?, hexValue?_digitChar n h]
    · next h =>
      rw [hexNumber?_append_singleton, ih (n / 16) (by omega), hexValue?_digitChar _ (Nat.mod_lt _ (by decide))]
      simp [Nat.div_add_mod]

theorem hexNumber?_zeros_append (k : Nat) (ds : List Char) :
    hexNumber? (List.replicate k '0' ++ ds) = hexNumber? ds := by
  induction k with
  | zero => rfl
  | succ k ih => exact ih

theorem hex4?_eq (a b c d : Char) : hex4? a b c d = hexNumber? [a, b, c, d] := by
  simp only [hex4?, hexNumber?, List.foldlM_cons, List.foldlM_nil]
  cases Text.hexValue? a <;> cases Text.hexValue? b <;> cases Text.hexValue? c <;> cases Text.hexValue? d <;>
    grind

theorem exists_hexDigits {n : Nat} (h : n < 0x10000) :
    ∃ a b c d, Text.hexDigits 4 n = [a, b, c, d] ∧ hex4? a b c d = some n := by
  have hlength : (Text.hexDigits 4 n).length = 4 := by
    have := (Nat.length_toDigits_le_iff (b := 16) (n := n) (k := 4) (by decide) (by decide)).2 h
    simp only [Text.hexDigits, List.length_append, List.length_replicate]
    omega
  match hdigits : Text.hexDigits 4 n, hlength with
  | [a, b, c, d], _ =>
    refine ⟨a, b, c, d, rfl, ?_⟩
    rw [hex4?_eq, ← hdigits, Text.hexDigits, hexNumber?_zeros_append, hexNumber?_toDigits]

/-! ## Characters -/

theorem spell_unit {start n : Nat} {read : Spelled} {a b c d : Char} {rest : List Char}
    (hunit : hex4? a b c d = some n) (hhigh : isHighSurrogate n = false) (hrest : rest ≠ []) :
    spell start read ('\\' :: 'u' :: a :: b :: c :: d :: rest) = spell start (read.push n) rest := by
  by_cases hpair : ∃ e f g h next more, rest = '\\' :: 'u' :: e :: f :: g :: h :: next :: more
  · obtain ⟨e, f, g, h, next, more, rfl⟩ := hpair
    rw [spell]
    simp [hunit, hhigh]
  · obtain ⟨next, rest, rfl⟩ := List.exists_cons_of_ne_nil hrest
    rw [spell]
    · simp [hunit]
    · intro e f g h next more hnext hmore
      exact hpair ⟨e, f, g, h, next, more, by rw [hnext, hmore]⟩

theorem spell_letter {start : Nat} {read : Spelled} {letter c : Char} {rest : List Char}
    (hletter : escaped? letter = some c) :
    spell start read ('\\' :: letter :: rest) = spell start ⟨c :: read.chars, read.whole⟩ rest := by
  have hu : letter ≠ 'u' := by
    rintro rfl
    cases hletter
  rw [spell]
  · simp [hletter]
  all_goals
    intros
    contradiction

theorem spell_plain {start : Nat} {read : Spelled} {c : Char} {rest : List Char} (hquote : c ≠ '"')
    (hescape : c ≠ '\\') (hcontrol : ¬ c.toNat < 32) :
    spell start read (c :: rest) = spell start ⟨c :: read.chars, read.whole⟩ rest := by
  rw [spell]
  · rw [if_neg hcontrol]
  all_goals
    intros
    contradiction

theorem escaped?_of_letterEscape? {c letter : Char} (h : letterEscape? c = some letter) :
    escaped? letter = some c := by
  simp only [letterEscape?] at h
  split at h <;> cases h <;> rfl

theorem letterEscape?_eq_none {c : Char} (h : letterEscape? c = none) : c ≠ '"' ∧ c ≠ '\\' := by
  constructor
  · rintro rfl
    cases h
  · rintro rfl
    cases h

/-- An escape by two surrogates is read as the character that they stand for. -/
theorem spell_pair {start high low : Nat} {read : Spelled} {a b c d e f g h : Char} {rest : List Char}
    (hhigh : hex4? a b c d = some high) (hlow : hex4? e f g h = some low) (hfirst : isHighSurrogate high = true)
    (hsecond : isLowSurrogate low = true) (hrest : rest ≠ []) :
    spell start read ('\\' :: 'u' :: a :: b :: c :: d :: '\\' :: 'u' :: e :: f :: g :: h :: rest) =
      spell start ⟨joinSurrogates high low :: read.chars, read.whole⟩ rest := by
  obtain ⟨next, rest, rfl⟩ := List.exists_cons_of_ne_nil hrest
  rw [spell]
  simp [hhigh, hlow, hfirst, hsecond]

theorem not_isSurrogate (c : Char) : isHighSurrogate c.toNat = false ∧ isLowSurrogate c.toNat = false := by
  have hvalid : c.toNat < 0xD800 ∨ 0xDFFF < c.toNat ∧ c.toNat < 0x110000 := c.valid
  simp only [isHighSurrogate, isLowSurrogate, Bool.and_eq_false_iff, decide_eq_false_iff_not]
  omega

theorem spell_number {start : Nat} {read : Spelled} {c : Char} {rest : List Char} (hc : c.toNat < 0x10000)
    (hrest : rest ≠ []) :
    spell start read ('\\' :: 'u' :: Text.hexDigits 4 c.toNat ++ rest) =
      spell start ⟨c :: read.chars, read.whole⟩ rest := by
  obtain ⟨a, b, d, e, hdigits, hunit⟩ := exists_hexDigits hc
  obtain ⟨hhigh, hlow⟩ := not_isSurrogate c
  rw [hdigits]
  refine (spell_unit hunit hhigh hrest).trans ?_
  simp [Spelled.push, hhigh, hlow]

/-- A character beyond the first plane is read from the numbers of its two surrogates. -/
theorem spell_surrogates {start : Nat} {read : Spelled} {c : Char} {rest : List Char} (hc : 0x10000 ≤ c.toNat)
    (hrest : rest ≠ []) :
    spell start read ('\\' :: 'u' :: Text.hexDigits 4 (0xD800 + (c.toNat - 0x10000) / 0x400) ++
        '\\' :: 'u' :: Text.hexDigits 4 (0xDC00 + (c.toNat - 0x10000) % 0x400) ++ rest) =
      spell start ⟨c :: read.chars, read.whole⟩ rest := by
  have hbound : c.toNat < 0x110000 := by
    have hvalid : c.toNat < 0xD800 ∨ 0xDFFF < c.toNat ∧ c.toNat < 0x110000 := c.valid
    omega
  have hjoin : joinSurrogates (0xD800 + (c.toNat - 0x10000) / 0x400) (0xDC00 + (c.toNat - 0x10000) % 0x400) = c := by
    rw [joinSurrogates, Nat.add_sub_cancel_left, Nat.add_sub_cancel_left, Nat.add_assoc, Nat.div_add_mod',
      Nat.add_sub_cancel' hc, Char.ofNat_toNat]
  generalize hhighUnit : 0xD800 + (c.toNat - 0x10000) / 0x400 = high at hjoin
  generalize hlowUnit : 0xDC00 + (c.toNat - 0x10000) % 0x400 = low at hjoin
  obtain ⟨a, b, d, e, hhighDigits, hhigh⟩ := exists_hexDigits (n := high) (by omega)
  obtain ⟨a', b', d', e', hlowDigits, hlow⟩ := exists_hexDigits (n := low) (by omega)
  have hfirst : isHighSurrogate high = true := by
    simp only [isHighSurrogate, Bool.and_eq_true, decide_eq_true_eq]
    omega
  have hsecond : isLowSurrogate low = true := by
    simp only [isLowSurrogate, Bool.and_eq_true, decide_eq_true_eq]
    omega
  rw [hhighDigits, hlowDigits]
  refine (spell_pair hhigh hlow hfirst hsecond hrest).trans ?_
  rw [hjoin]

/-- A way to write characters from which each of them is read. -/
def IsRead (write : Char → List Char) : Prop :=
  ∀ (start : Nat) (read : Spelled) (c : Char) (rest : List Char), rest ≠ [] →
    spell start read (write c ++ rest) = spell start ⟨c :: read.chars, read.whole⟩ rest

/-- **A character of a document is read as itself.** -/
theorem isRead_escape : IsRead escape := by
  intro start read c rest hrest
  simp only [escape]
  split
  · next letter h => exact spell_letter (escaped?_of_letterEscape? h)
  · next h =>
    split
    · next hcontrol => exact spell_number (by omega) hrest
    · next hcontrol =>
      obtain ⟨hquote, hescape⟩ := letterEscape?_eq_none h
      exact spell_plain hquote hescape hcontrol

/-- **A character of a log line is read as itself.** -/
theorem isRead_escapeAscii : IsRead escapeAscii := by
  intro start read c rest hrest
  simp only [escapeAscii]
  split
  · next letter h => exact spell_letter (escaped?_of_letterEscape? h)
  · next h =>
    split
    · next hplain =>
      obtain ⟨hquote, hescape⟩ := letterEscape?_eq_none h
      rw [Bool.and_eq_true, decide_eq_true_eq, decide_eq_true_eq] at hplain
      exact spell_plain hquote hescape (by omega)
    · split
      · next hunit => exact spell_number hunit hrest
      · next hunit => exact spell_surrogates (Nat.le_of_not_lt hunit) hrest

section IsRead

variable {write : Char → List Char} (h : IsRead write)
include h

theorem IsRead.spell_flatMap {start : Nat} {read : Spelled} (s rest : List Char) :
    spell start read (s.flatMap write ++ '"' :: rest) = .ok (⟨s.reverse ++ read.chars, read.whole⟩, rest) := by
  induction s generalizing read with
  | nil =>
    rw [List.flatMap_nil, List.nil_append, spell.eq_def]
    rfl
  | cons c s ih =>
    rw [List.flatMap_cons, List.append_assoc, h start read c _ (by simp), ih]
    simp

/-- **Every text is read back from its quoted form.** -/
theorem IsRead.spelled (s : String) (rest : List Char) :
    spelled (s.toList.flatMap write ++ '"' :: rest) = .ok (⟨s.toList.reverse, true⟩, rest) := by
  rw [Json.spelled, h.spell_flatMap, List.append_nil]

end IsRead

theorem value_spelled (s : String) : Spelled.value ⟨s.toList.reverse, true⟩ = .text s := by
  simp [Spelled.value]

end SketchTurtle.Json
