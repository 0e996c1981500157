/-
Numbers in documents are read back.

The sign, the digits before the point, the fraction and the exponent of a
number are found again (`number?_text`), so a whole number is read as itself
unless it has too many digits (`number?_intText`), and a finite double is read
as itself (`number?_documentFloat`).
-/
import SketchTurtle.Json.Reader
import SketchTurtle.Json.Writer
import SketchTurtle.Proofs.Number.Reading
import SketchTurtle.Proofs.Number.Word

namespace SketchTurtle.Json

open Numeral

/-! ## The parts of a number -/

/-- The characters with which a number may go on. -/
def isNumeric (c : Char) : Bool := c.isDigit || c == '.' || c == 'e' || c == 'E'

/-- A text that does not go on with a number that stands before it. -/
abbrev Ends (rest : List Char) : Prop := StopsAt isNumeric rest

theorem isNumeric_eq_false {c : Char} :
    isNumeric c = false ↔ c.isDigit = false ∧ c ≠ '.' ∧ c ≠ 'e' ∧ c ≠ 'E' := by
  simp [isNumeric, and_assoc]

theorem Ends.stopsAt_isDigit {rest : List Char} (h : Ends rest) : StopsAt Char.isDigit rest :=
  fun c hc => (isNumeric_eq_false.1 (h c hc)).1

section Parts

variable {p : Parts} {rest : List Char} (hp : p.Proper) (hrest : Ends rest)

include hrest in
theorem stopsAt_exponentText_append : StopsAt Char.isDigit (p.exponentText ++ rest) := by
  simp only [Parts.exponentText]
  split
  · exact hrest.stopsAt_isDigit
  · exact stopsAt_cons.2 rfl

include hrest in
theorem stopsAt_rest_append : StopsAt Char.isDigit (p.fractionText ++ (p.exponentText ++ rest)) := by
  simp only [Parts.fractionText]
  split
  · exact stopsAt_exponentText_append hrest
  · exact stopsAt_cons.2 rfl

include hp hrest

theorem fractionPart_text :
    fractionPart (p.fractionText ++ (p.exponentText ++ rest)) = (p.fractionText, p.exponentText ++ rest) := by
  have hstop := stopsAt_exponentText_append (p := p) hrest
  by_cases hfraction : p.fraction = []
  · have hpoint (more : List Char) : p.exponentText ++ rest ≠ '.' :: more := by
      rw [Parts.exponentText]
      split
      · rintro rfl
        exact absurd rfl (isNumeric_eq_false.1 (stopsAt_cons.1 hrest)).2.1
      · simp
    rw [Parts.fractionText, if_pos hfraction, List.nil_append, fractionPart]
    exact hpoint
  · rw [Parts.fractionText, if_neg hfraction, List.cons_append, fractionPart]
    simp only [takeWhile_run hp.fraction hstop, dropWhile_run hp.fraction hstop, List.isEmpty_iff, hfraction,
      if_false]

theorem exponentPart_text : exponentPart (p.exponentText ++ rest) = (p.exponentText, rest) := by
  simp only [Parts.exponentText]
  split
  · cases rest with
    | nil => rfl
    | cons c rest =>
      obtain ⟨-, -, he, hE⟩ := isNumeric_eq_false.1 (stopsAt_cons.1 hrest)
      simp [exponentPart, he, hE]
  · next negative ds hexponent =>
    obtain ⟨hds, hne⟩ := hp.exponent negative ds hexponent
    have hstop := hrest.stopsAt_isDigit
    cases negative <;> simp [exponentPart, takeWhile_run hds hstop, dropWhile_run hds hstop, hne]

omit hrest in
theorem splitMinus_text (negative : Bool) :
    splitMinus (Layout.signed negative p.text ++ rest) = (negative, p.text ++ rest) := by
  cases negative with
  | true => rfl
  | false =>
    obtain ⟨d, ds, hds⟩ := List.exists_cons_of_ne_nil hp.whole_ne
    have hd : d.isDigit = true := hp.whole d (by simp [hds])
    rw [Layout.signed, if_neg Bool.false_ne_true, splitMinus]
    rw [Parts.text, hds]
    rintro more ⟨⟩
    cases hd

theorem wholePart_text : wholePart (p.whole ++ (p.fractionText ++ (p.exponentText ++ rest))) = p.whole := by
  obtain ⟨d, ds, hds⟩ := List.exists_cons_of_ne_nil hp.whole_ne
  by_cases hzero : d = '0'
  · rw [hp.unpadded (by rw [hds, hzero, List.head?_cons])]
    rfl
  · rw [wholePart]
    · exact takeWhile_run hp.whole (stopsAt_rest_append hrest)
    · rw [hds]
      rintro more ⟨⟩
      exact hzero rfl

theorem number?_text (negative : Bool) :
    number? (Layout.signed negative p.text ++ rest) =
      if p.fractionText.isEmpty && p.exponentText.isEmpty then
        if maxIntDigits < p.whole.length then some (.error (.tooManyDigits p.whole.length))
        else some (.ok (.int (if negative then -(ofDigits p.whole : Int) else ofDigits p.whole), rest))
      else some (.ok (.float (p.read negative).toFloat, rest)) := by
  have happend : p.text ++ rest = p.whole ++ (p.fractionText ++ (p.exponentText ++ rest)) := by
    simp only [Parts.text, List.append_assoc]
  have hwhole := wholePart_text hp hrest
  have hne : p.whole.isEmpty = false := by simpa using hp.whole_ne
  have htext : p.whole ++ p.fractionText ++ p.exponentText = p.text := List.append_assoc ..
  simp only [number?, splitMinus_text hp, happend, hwhole, hne, List.drop_left, fractionPart_text hp hrest,
    exponentPart_text hp hrest, htext, hp.decimal?_text, Option.map_some, Bool.false_eq_true, if_false]

end Parts

/-! ## Numbers that are written -/

theorem word?_text {p : Parts} (hp : p.Proper) (negative : Bool) (rest : List Char) :
    word? (Layout.signed negative p.text ++ rest) = none := by
  obtain ⟨d, ds, hds⟩ := List.exists_cons_of_ne_nil hp.whole_ne
  have hne (c : Char) (hc : c.isDigit = false) : c ≠ d := by
    rintro rfl
    have hd := hp.whole c (by simp [hds])
    rw [hc] at hd
    cases hd
  have hletters : 'n' ≠ d ∧ 't' ≠ d ∧ 'f' ≠ d ∧ 'N' ≠ d ∧ 'I' ≠ d ∧ '-' ≠ d := by
    refine ⟨?_, ?_, ?_, ?_, ?_, ?_⟩ <;> exact hne _ rfl
  rw [Parts.text, hds]
  cases negative <;> simp [word?, words, Layout.signed, hletters]

/-- The parts of a whole number. -/
def wholeParts (n : Int) : Parts := ⟨Layout.digitsOf n.natAbs, [], none⟩

theorem proper_wholeParts (n : Int) : (wholeParts n).Proper where
  whole := areDigits_digitsOf _
  whole_ne := digitsOf_ne_nil _
  unpadded := fun h => by
    rcases Nat.eq_zero_or_pos n.natAbs with hzero | hpos
    · rw [wholeParts, hzero]
      rfl
    · exact absurd h (head?_digitsOf hpos)
  fraction := nofun
  exponent := nofun

theorem intText_eq (n : Int) : intText n = Layout.signed (n < 0) (wholeParts n).text := by
  rw [intText, Parts.text, Parts.fractionText, Parts.exponentText]
  simp [wholeParts]

theorem isLongInt_iff (n : Int) : isLongInt n = true ↔ maxIntDigits < (Layout.digitsOf n.natAbs).length := by
  have h := Nat.length_toDigits_le_iff (b := 10) (n := n.natAbs) (k := maxIntDigits) (by decide) (by decide)
  rw [isLongInt, Nat.pow_eq, decide_eq_true_iff, ← not_lt, ← h, not_le]
  rfl

/-- A whole number is read as itself, unless it has too many digits. -/
theorem number?_intText (n : Int) {rest : List Char} (hrest : Ends rest) :
    number? (intText n ++ rest) =
      some (if isLongInt n then .error (.tooManyDigits (Layout.digitsOf n.natAbs).length)
        else .ok (.int n, rest)) := by
  have hsign : (if n < 0 then -(n.natAbs : Int) else n.natAbs) = n := by split <;> omega
  have hempty : ((wholeParts n).fractionText.isEmpty && (wholeParts n).exponentText.isEmpty) = true := rfl
  rw [intText_eq, number?_text (proper_wholeParts n) hrest, if_pos hempty]
  simp only [wholeParts, ofDigits_digitsOf, decide_eq_true_iff, hsign, isLongInt_iff]
  split <;> rfl

/-- The text of a finite double has parts that are read as the double. -/
theorem exists_documentFloat {x : Float} (h : (Exact.ofFloat x).isFinite = true) :
    ∃ (p : Parts) (negative : Bool), documentFloat x = Layout.signed negative p.text ∧ p.Proper ∧ p.IsReal ∧
      (p.read negative).toFloat = x := by
  have hnormal := Exact.isNormal_ofFloat x
  have hnan : Exact.ofFloat x ≠ .nan := by
    intro hnan
    rw [hnan] at h
    cases h
  have hx := Exact.toFloat_ofFloat hnan
  rw [documentFloat]
  generalize Exact.ofFloat x = exact at *
  cases exact with
  | nan => cases h
  | infinite negative => cases h
  | finite negative m e =>
    obtain ⟨p, htext, hproper, hreal, hread⟩ := Layout.document.exists_parts negative hnormal
    exact ⟨p, negative, htext, hproper, hreal, by rw [hread, hx]⟩

theorem number?_documentFloat {x : Float} (h : (Exact.ofFloat x).isFinite = true) {rest : List Char}
    (hrest : Ends rest) : number? (documentFloat x ++ rest) = some (.ok (.float x, rest)) := by
  obtain ⟨p, negative, htext, hproper, hreal, hread⟩ := exists_documentFloat h
  have hparts : ¬ (p.fractionText.isEmpty && p.exponentText.isEmpty) = true := by
    rw [Bool.and_eq_true, List.isEmpty_iff, List.isEmpty_iff, Parts.fractionText, Parts.exponentText]
    rintro ⟨hfraction, hexponent⟩
    rcases hreal with hreal | hreal
    · simp [hreal] at hfraction
    · split at hexponent
      · next hnone => exact hreal hnone
      · cases hexponent
  rw [htext, number?_text hproper hrest, if_neg hparts, hread]

end SketchTurtle.Json
