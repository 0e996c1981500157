/-
Numbers that are written are read back.

The text of a number has up to three parts: digits, a fraction and an exponent
(`Numeral.Parts`). A decimal reader finds the parts again (`decimal?_text`), and
every layout of a finite double has parts whose number is the double
(`Layout.exists_parts`).
-/
import SketchTurtle.Number.Layout
import SketchTurtle.Number.Numeral
import SketchTurtle.Proofs.Number.Shortest

namespace SketchTurtle

open Exact

/-! ## Runs of characters -/

/-- A text that does not begin with a character of the class. -/
def StopsAt (p : Char → Bool) (s : List Char) : Prop := ∀ c ∈ s.head?, p c = false

@[simp]
theorem stopsAt_nil (p : Char → Bool) : StopsAt p [] := nofun

@[simp]
theorem stopsAt_cons {p : Char → Bool} {c : Char} {s : List Char} : StopsAt p (c :: s) ↔ p c = false := by
  simp [StopsAt]

section Run

variable {p : Char → Bool} {run rest : List Char} (hrun : ∀ c ∈ run, p c = true) (hrest : StopsAt p rest)
include hrun hrest

theorem takeWhile_run : (run ++ rest).takeWhile p = run := by
  rw [List.takeWhile_append_of_pos hrun]
  cases rest with
  | nil => simp
  | cons c rest => simp [stopsAt_cons.1 hrest]

theorem dropWhile_run : (run ++ rest).dropWhile p = rest := by
  rw [List.dropWhile_append_of_pos hrun]
  cases rest with
  | nil => rfl
  | cons c rest => simp [stopsAt_cons.1 hrest]

end Run

namespace Numeral

/-! ## The number of digits -/

/-- All characters are decimal digits. -/
def AreDigits (s : List Char) : Prop := ∀ c ∈ s, c.isDigit = true

theorem ofDigits_eq (ds : List Char) : ofDigits ds = Nat.ofDigitChars 10 ds 0 := rfl

theorem ofDigits_append (ds es : List Char) :
    ofDigits (ds ++ es) = ofDigits ds * 10 ^ es.length + ofDigits es := by
  rw [ofDigits_eq, Nat.ofDigitChars_append, Nat.ofDigitChars_eq_ofDigitChars_zero, Nat.mul_comm]
  rfl

@[simp]
theorem ofDigits_zeros (n : Nat) : ofDigits (List.replicate n '0') = 0 := by
  rw [ofDigits_eq, Nat.ofDigitChars_replicate_zero, Nat.mul_zero]

@[simp]
theorem ofDigits_digitsOf (n : Nat) : ofDigits (Layout.digitsOf n) = n :=
  Nat.ofDigitChars_ten_toDigits

@[simp]
theorem ofDigits_padded (width n : Nat) : ofDigits (Layout.padded width n) = n := by
  simp only [Layout.padded, ofDigits_append, ofDigits_zeros, ofDigits_digitsOf, Nat.zero_mul, Nat.zero_add]

theorem digitsOf_ne_nil (n : Nat) : Layout.digitsOf n ≠ [] := Nat.toDigits_ne_nil

theorem areDigits_digitsOf (n : Nat) : AreDigits (Layout.digitsOf n) :=
  fun _ hc => Nat.isDigit_of_mem_toDigits (by decide) (by decide) hc

theorem areDigits_zeros (n : Nat) : AreDigits (List.replicate n '0') := by
  intro c hc
  rw [List.eq_of_mem_replicate hc]
  rfl

theorem AreDigits.append {s t : List Char} (hs : AreDigits s) (ht : AreDigits t) : AreDigits (s ++ t) :=
  List.forall_mem_append.2 ⟨hs, ht⟩

theorem areDigits_padded (width n : Nat) : AreDigits (Layout.padded width n) :=
  (areDigits_zeros _).append (areDigits_digitsOf n)

/-- Positive numbers are written without zeros in front. -/
theorem head?_digitsOf {n : Nat} (hn : 0 < n) : (Layout.digitsOf n).head? ≠ some '0' := by
  induction n using Nat.strongRecOn with
  | ind n ih =>
    rw [Layout.digitsOf, Nat.toDigits_eq_if (by decide)]
    split
    · next h =>
      intro hzero
      have hvalue := Nat.toNat_digitChar_sub_48_of_lt_ten h
      rw [Option.some.inj hzero] at hvalue
      exact hn.ne hvalue
    · next h =>
      rw [List.head?_append_of_ne_nil _ Nat.toDigits_ne_nil]
      exact ih (n / 10) (by omega) (by omega)

/-! ## Parts -/

/-- The text of a number in parts. A number without fraction has no point, and
the exponent has a sign. -/
structure Parts where
  whole : List Char
  fraction : List Char
  exponent : Option (Bool × List Char)

namespace Parts

/-- The point and the fraction. -/
def fractionText (p : Parts) : List Char := if p.fraction = [] then [] else '.' :: p.fraction

/-- The exponent with its letter and its sign. -/
def exponentText (p : Parts) : List Char :=
  match p.exponent with
  | none => []
  | some (negative, ds) => 'e' :: (if negative then '-' else '+') :: ds

def text (p : Parts) : List Char := p.whole ++ (p.fractionText ++ p.exponentText)

/-- The number that the exponent adds. -/
def shift (p : Parts) : Int :=
  match p.exponent with
  | none => 0
  | some (negative, ds) => if negative then -(ofDigits ds : Int) else ofDigits ds

/-- The double that is nearest the number. -/
def read (p : Parts) (negative : Bool) : Exact :=
  ofDecimal negative (ofDigits (p.whole ++ p.fraction)) (p.shift - p.fraction.length)

/-- Every part that must have digits has some, and no zeros stand in front. -/
structure Proper (p : Parts) : Prop where
  whole : AreDigits p.whole
  whole_ne : p.whole ≠ []
  unpadded : p.whole.head? = some '0' → p.whole = ['0']
  fraction : AreDigits p.fraction
  exponent : ∀ negative ds, p.exponent = some (negative, ds) → AreDigits ds ∧ ds ≠ []

/-- The number has a fraction or an exponent. -/
def IsReal (p : Parts) : Prop := p.fraction ≠ [] ∨ p.exponent ≠ none

variable {p : Parts}

theorem text_pointed {whole fraction : List Char} (h : fraction ≠ []) :
    (⟨whole, fraction, none⟩ : Parts).text = whole ++ '.' :: fraction := by
  rw [text, fractionText, if_neg h, exponentText, List.append_nil]

theorem stopsAt_exponentText (p : Parts) : StopsAt Char.isDigit p.exponentText := by
  simp only [exponentText]
  split
  · exact stopsAt_nil _
  · exact stopsAt_cons.2 rfl

theorem stopsAt_rest (p : Parts) : StopsAt Char.isDigit (p.fractionText ++ p.exponentText) := by
  simp only [fractionText]
  split
  · exact p.stopsAt_exponentText
  · exact stopsAt_cons.2 rfl

theorem Proper.exponent?_text (h : p.Proper) : exponent? p.exponentText = some p.shift := by
  simp only [exponentText, shift]
  split
  · rfl
  · next negative ds hexponent =>
    obtain ⟨hds, hne⟩ := h.exponent negative ds hexponent
    have hall : ds.all Char.isDigit = true := List.all_eq_true.2 hds
    cases negative <;> simp [exponent?, splitSign, hne, hall]

/-- **The parts of a number are found again.** -/
theorem Proper.decimal?_text (h : p.Proper) (negative : Bool) :
    decimal? negative p.text = some (p.read negative) := by
  have hwhole := takeWhile_run h.whole p.stopsAt_rest
  have hrest := dropWhile_run h.whole p.stopsAt_rest
  have hne : p.whole.isEmpty = false := by simpa using h.whole_ne
  simp only [decimal?, text, hwhole, hrest, hne, Bool.false_and, Bool.false_eq_true, if_false]
  by_cases hfraction : p.fraction = []
  · have htext : p.fractionText ++ p.exponentText = p.exponentText := by
      rw [fractionText, if_pos hfraction, List.nil_append]
    have hpoint (rest : List Char) : p.exponentText ≠ '.' :: rest := by
      rw [exponentText]
      split <;> simp
    rw [htext, read, hfraction]
    split
    · next rest heq => exact absurd heq (hpoint rest)
    · simp [h.exponent?_text]
  · have htext : p.fractionText ++ p.exponentText = '.' :: (p.fraction ++ p.exponentText) := by
      rw [fractionText, if_neg hfraction, List.cons_append]
    rw [htext]
    simp only [takeWhile_run h.fraction p.stopsAt_exponentText, dropWhile_run h.fraction p.stopsAt_exponentText,
      h.exponent?_text, Option.map_some, read]

end Parts

end Numeral

/-! ## Layouts -/

namespace Layout

open Numeral

/-- The parts write the decimal: they hold the same number, as a real one. -/
structure Writes (p : Parts) (x : Decimal) : Prop where
  proper : p.Proper
  real : p.IsReal
  same : (ofDigits (p.whole ++ p.fraction) * 10 ^ (p.shift - p.fraction.length) : ℚ) =
    x.digits * 10 ^ x.exponent

theorem areDigits_zero : AreDigits ['0'] := areDigits_zeros 1

section Decimal

variable {x : Decimal} (hx : 0 < x.digits)
include hx

theorem writes_whole (h : 0 ≤ x.exponent) :
    Writes ⟨digitsOf x.digits ++ List.replicate x.exponent.toNat '0', ['0'], none⟩ x where
  proper :=
    { whole := (areDigits_digitsOf _).append (areDigits_zeros _)
      whole_ne := by simp [digitsOf_ne_nil]
      unpadded := fun hzero => by
        dsimp only at hzero
        rw [List.head?_append_of_ne_nil _ (digitsOf_ne_nil _)] at hzero
        exact absurd hzero (head?_digitsOf hx)
      fraction := areDigits_zero
      exponent := nofun }
  real := .inl (by simp)
  same := by
    have hexponent : (10 : ℚ) ^ x.exponent = 10 ^ x.exponent.toNat := by
      rw [← zpow_natCast, Int.toNat_of_nonneg h]
    have hzero : ofDigits ['0'] = 0 := rfl
    simp only [ofDigits_append, ofDigits_zeros, ofDigits_digitsOf, hzero, hexponent, Parts.shift,
      List.length_replicate, List.length_singleton]
    push_cast
    rw [zpow_neg_one]
    ring

theorem writes_pointed (hexponent : ¬ 0 ≤ x.exponent)
    (hwhole : 0 < ((digitsOf x.digits).length : Int) + x.exponent) :
    Writes ⟨(digitsOf x.digits).take (((digitsOf x.digits).length : Int) + x.exponent).toNat,
      (digitsOf x.digits).drop (((digitsOf x.digits).length : Int) + x.exponent).toNat, none⟩ x := by
  have hdigits := areDigits_digitsOf x.digits
  have hhead := head?_digitsOf hx
  have hvalue := ofDigits_digitsOf x.digits
  generalize digitsOf x.digits = ds at *
  obtain ⟨n, hn⟩ : ∃ n : Nat, (ds.length : Int) + x.exponent = n + 1 :=
    ⟨((ds.length : Int) + x.exponent - 1).toNat, by omega⟩
  have hlt : n + 1 < ds.length := by omega
  rw [hn, Int.toNat_natCast_add_one]
  cases ds with
  | nil => cases hlt
  | cons d ds =>
    rw [List.head?_cons] at hhead
    refine ⟨⟨fun c hc => hdigits c (List.mem_of_mem_take hc), by simp, fun h => absurd h hhead,
      fun c hc => hdigits c (List.mem_of_mem_drop hc), nofun⟩, .inl ?_, ?_⟩
    · exact fun h => by simpa using List.drop_eq_nil_iff.1 h |>.trans_lt hlt
    · have hlength : (0 : Int) - ((d :: ds).length - (n + 1) : Nat) = x.exponent := by
        rw [List.length_cons] at *
        omega
      rw [List.take_append_drop, hvalue, Parts.shift, List.length_drop, hlength]

omit hx in
theorem writes_fraction (hwhole : ¬ 0 < ((digitsOf x.digits).length : Int) + x.exponent) :
    Writes ⟨['0'], List.replicate (-(((digitsOf x.digits).length : Int) + x.exponent)).toNat '0' ++
      digitsOf x.digits, none⟩ x where
  proper :=
    { whole := areDigits_zero
      whole_ne := by simp
      unpadded := fun _ => rfl
      fraction := (areDigits_zeros _).append (areDigits_digitsOf _)
      exponent := nofun }
  real := .inl (by simp [digitsOf_ne_nil])
  same := by
    have hzero : ofDigits ['0'] = 0 := rfl
    have hlength : (0 : Int) - (((-(((digitsOf x.digits).length : Int) + x.exponent)).toNat +
        (digitsOf x.digits).length : Nat) : Int) = x.exponent := by omega
    simp only [ofDigits_append, ofDigits_zeros, ofDigits_digitsOf, hzero, Nat.zero_mul, Nat.zero_add,
      Parts.shift, List.length_append, List.length_replicate, hlength]

theorem exists_writes_positional :
    ∃ p : Parts, positional (digitsOf x.digits) x.exponent = p.text ∧ Writes p x := by
  simp only [positional]
  split
  · next h =>
    refine ⟨_, ?_, writes_whole hx h⟩
    rw [Parts.text_pointed (by simp)]
  · split
    · next hexponent hwhole =>
      have hwrites := writes_pointed hx hexponent hwhole
      exact ⟨_, (Parts.text_pointed (hwrites.real.resolve_right (by simp))).symm, hwrites⟩
    · next hwhole =>
      have hwrites := writes_fraction hwhole
      refine ⟨_, ?_, hwrites⟩
      rw [Parts.text_pointed (hwrites.real.resolve_right (by simp))]
      rfl

theorem exists_writes_scientific (layout : Layout) :
    ∃ p : Parts, layout.scientific (digitsOf x.digits) (x.exponent + (digitsOf x.digits).length - 1) = p.text ∧
      Writes p x := by
  have hdigits := areDigits_digitsOf x.digits
  have hhead := head?_digitsOf hx
  have hvalue := ofDigits_digitsOf x.digits
  have hne := digitsOf_ne_nil x.digits
  generalize digitsOf x.digits = ds at *
  cases ds with
  | nil => exact absurd rfl hne
  | cons d ds =>
    rw [List.head?_cons] at hhead
    obtain ⟨hd, hds⟩ := List.forall_mem_cons.1 hdigits
    generalize hleading : x.exponent + ((d :: ds).length : Nat) - 1 = leading
    refine ⟨⟨[d], ds, some (decide (leading < 0), padded layout.exponentDigits leading.natAbs)⟩, ?_, ?_, ?_, ?_⟩
    · cases ds <;> simp [scientific, Parts.text, Parts.fractionText, Parts.exponentText]
    · refine ⟨List.forall_mem_singleton.2 hd, by simp, fun h => absurd h hhead, hds, ?_⟩
      rintro _ _ ⟨⟩
      exact ⟨areDigits_padded _ _, by simp [padded, digitsOf_ne_nil]⟩
    · exact .inr (by simp)
    · have hshift : (if decide (leading < 0) = true then -((leading.natAbs : Nat) : Int) else (leading.natAbs : Nat)) -
          (ds.length : Nat) = x.exponent := by
        rw [List.length_cons] at hleading
        simp only [decide_eq_true_eq]
        split <;> omega
      simp only [Parts.shift, List.singleton_append, hvalue, ofDigits_padded, hshift]

theorem exists_writes_decimal (layout : Layout) : ∃ p : Parts, layout.decimal x = p.text ∧ Writes p x := by
  simp only [decimal]
  split
  · exact exists_writes_positional hx
  · exact exists_writes_scientific hx layout

end Decimal

/-- **Every layout of a finite double is read back as the double.** -/
theorem exists_parts (layout : Layout) (negative : Bool) {m : Nat} {e : Int} (h : Normal m e) :
    ∃ p : Parts, layout.finite negative m e = signed negative p.text ∧ p.Proper ∧ p.IsReal ∧
      p.read negative = .finite negative m e := by
  by_cases hm : m = 0
  · have he : e = minExponent := h.full.resolve_left (by omega)
    refine ⟨⟨['0'], ['0'], none⟩, ?_, ?_, .inl (by simp), ?_⟩
    · rw [finite, if_pos hm]
      rfl
    · exact ⟨areDigits_zero, by simp, fun _ => rfl, areDigits_zero, nofun⟩
    · rw [hm, he]
      rfl
  · have hpos := Nat.pos_of_ne_zero hm
    obtain ⟨p, htext, hproper, hreal, hsame⟩ := exists_writes_decimal (digits_shortest_pos hpos e) layout
    refine ⟨p, ?_, hproper, hreal, ofDecimal_shortest h hpos hsame⟩
    rw [finite, if_neg hm, htext]

end Layout

end SketchTurtle
