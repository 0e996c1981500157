/-
Numbers written with at most two decimals.

A coordinate is a whole number of hundredths, the one nearest to its double
(`isNearestWhole_roundHalfUp`), which is rounded to a double again and written in its shortest
form. That form is again the text of a number of hundredths (`exists_hundredths`), for the
double stands for one. Below ten to the thirteenth doubles lie so close that it is the same
number (`coordinate_eq_hundredths`); beyond, the text is still read as the double closest
to it (`coordinate_reads_closest`).
-/
import SketchTurtle.Proofs.Number.Closest
import SketchTurtle.Proofs.Number.Places
import SketchTurtle.Proofs.Turtle.Grammar
import SketchTurtle.Proofs.Turtle.Literal
import Mathlib.Algebra.Order.Round

namespace SketchTurtle.Turtle

open Exact Numeral Shortest

/-! ## The nearest whole number -/

/-- A whole number nearest to a number, of two equally near ones the one away from zero. -/
structure IsNearestWhole (x : ℚ) (n : ℤ) : Prop where
  near : |x - n| ≤ 1 / 2
  away : |x - n| = 1 / 2 → |x| < |(n : ℚ)|

/-- Of two numbers in order the nearest whole numbers are in order. -/
theorem IsNearestWhole.le {x y : ℚ} {n k : ℤ} (hn : IsNearestWhole x n) (hk : IsNearestWhole y k) (hxy : x ≤ y) :
    n ≤ k := by
  by_contra hle
  obtain ⟨hn_low, hn_high⟩ := abs_le.1 hn.near
  obtain ⟨hk_low, hk_high⟩ := abs_le.1 hk.near
  have hle : (k : ℚ) + 1 ≤ n := by exact_mod_cast not_le.1 hle
  -- The numbers are the same, half way between both, so both would have to be away from zero.
  have hx : x = k + 1 / 2 := by linarith
  have hy : y = k + 1 / 2 := by linarith
  have hnext : (n : ℚ) = k + 1 := by linarith
  have haway := hk.away (by rw [hy, add_sub_cancel_left, abs_of_pos (by norm_num)])
  have haway' := hn.away (by rw [hx, hnext, add_sub_add_left_eq_sub]; norm_num)
  rw [hy] at haway
  rw [hx] at haway'
  rcases le_or_gt 0 k with h | h
  · have h : (0 : ℚ) ≤ k := by exact_mod_cast h
    rw [abs_of_nonneg (by linarith), abs_of_nonneg h] at haway
    linarith
  · have h : (k : ℚ) + 1 ≤ 0 := by exact_mod_cast h
    rw [hnext, abs_of_nonpos (by linarith), abs_of_nonpos h] at haway'
    linarith

theorem IsNearestWhole.unique {x : ℚ} {n k : ℤ} (hn : IsNearestWhole x n) (hk : IsNearestWhole x k) : n = k :=
  le_antisymm (hn.le hk le_rfl) (hk.le hn le_rfl)

/-- Rounding a half up is rounding it away from zero, for a quotient is not negative. -/
theorem isNearestWhole_roundHalfUp {num den : Nat} {x : ℚ} (hden : 0 < den) (hx : (num : ℚ) = x * den) :
    IsNearestWhole x (roundHalfUp num den : Nat) := by
  have hdenq : (0 : ℚ) < den := by exact_mod_cast hden
  have hpos : 0 ≤ x := by
    refine nonneg_of_mul_nonneg_left ?_ hdenq
    rw [← hx]
    exact num.cast_nonneg
  have hle : roundHalfUp num den * (2 * den) ≤ 2 * num + den := Nat.div_mul_le_self _ _
  have hlt : 2 * num + den < 2 * den * (roundHalfUp num den + 1) := Nat.lt_mul_div_succ _ (by omega)
  generalize roundHalfUp num den = n at *
  have hle : (n * (2 * den) : ℚ) ≤ 2 * num + den := by exact_mod_cast hle
  have hlt : (2 * num + den : ℚ) < 2 * den * (n + 1) := by exact_mod_cast hlt
  rw [hx] at hle hlt
  have hlow : (n : ℚ) - 1 / 2 ≤ x := by
    refine le_of_mul_le_mul_right ?_ hdenq
    linarith
  have hhigh : x < n + 1 / 2 := by
    refine lt_of_mul_lt_mul_right ?_ hdenq.le
    linarith
  refine ⟨?_, fun h => ?_⟩
  · rw [Int.cast_natCast]
    exact abs_le.2 ⟨by linarith, by linarith⟩
  · rw [Int.cast_natCast] at h ⊢
    rw [abs_of_nonneg hpos, abs_of_nonneg n.cast_nonneg]
    rcases (abs_eq (by norm_num)).1 h with h | h
    · linarith
    · linarith

theorem cast_signed (negative : Bool) (n : Nat) : ((signed negative n : ℤ) : ℚ) = withSign negative n := by
  cases negative <;> simp [signed, withSign]

theorem abs_withSign (negative : Bool) (x : ℚ) : |withSign negative x| = |x| := by
  cases negative <;> simp [withSign]

theorem IsNearestWhole.withSign {x : ℚ} {n : Nat} (h : IsNearestWhole x n) (negative : Bool) :
    IsNearestWhole (Exact.withSign negative x) (signed negative n) := by
  obtain ⟨hnear, haway⟩ := h
  rw [Int.cast_natCast] at hnear haway
  refine ⟨?_, ?_⟩
  · rwa [cast_signed, abs_withSign_sub]
  · rwa [cast_signed, abs_withSign_sub, abs_withSign, abs_withSign]

/-! ## The text of hundredths -/

/-- The parts of a number of hundredths, without zeros at the end of the fraction. -/
def hundredths (n : Nat) : Parts where
  whole := Layout.digitsOf (n / 100)
  fraction :=
    if n % 100 = 0 then []
    else if n % 10 = 0 then [(n / 10 % 10).digitChar]
    else [(n / 10 % 10).digitChar, (n % 10).digitChar]
  exponent := none

/-- The text of a number of hundredths. -/
def hundredthsText (n : ℤ) : String :=
  String.ofList (Layout.signed (n < 0) (hundredths n.natAbs).text)

theorem text_hundredths_whole (n : Nat) : (hundredths (100 * n)).text = Layout.digitsOf n := by
  simp [hundredths, Parts.text, Parts.fractionText, Parts.exponentText]

theorem text_hundredths_one {n : Nat} (h : n % 10 ≠ 0) :
    (hundredths (10 * n)).text = Layout.digitsOf (n / 10) ++ ['.', (n % 10).digitChar] := by
  have hwhole : 10 * n / 100 = n / 10 := by omega
  have hfraction : ¬ 10 * n % 100 = 0 := by omega
  simp [hundredths, Parts.text, Parts.fractionText, Parts.exponentText, hwhole, hfraction]

theorem text_hundredths_two {n : Nat} (h : n % 10 ≠ 0) :
    (hundredths n).text =
      Layout.digitsOf (n / 100) ++ ['.', (n / 10 % 10).digitChar, (n % 10).digitChar] := by
  have hfraction : ¬ n % 100 = 0 := by omega
  simp [hundredths, Parts.text, Parts.fractionText, Parts.exponentText, h, hfraction]

/-- **The literal of a double that stands for hundredths is a text of hundredths**, which it
stands for too. -/
theorem exists_hundredths {m : Nat} {e : Int} (h : Normal m e) (hm : 0 < m) {n : Nat}
    (hn : (interval m e).Contains (n / 100)) (negative : Bool) :
    ∃ k : Nat, literalOf (.finite negative m e) = Layout.signed negative (hundredths k).text ∧
      (interval m e).Contains (k / 100) := by
  simp only [literalOf]
  rw [if_neg hm.ne']
  split
  · next hwhole =>
    have hvalue := ratio_div_eq hwhole
    refine ⟨100 * ((ratio m e).1 / (ratio m e).2), by rw [text_hundredths_whole], ?_⟩
    have hcontains := contains_middle hm e
    rw [← hvalue] at hcontains
    convert hcontains using 1
    push_cast
    ring
  · next hfraction =>
    have he : e < 0 := by
      refine lt_of_not_ge fun hge => hfraction ?_
      rw [ratio_snd_of_nonneg m hge, Nat.mod_one]
    obtain ⟨hplaces, hlast⟩ := shortest_of_contains_hundredths hm hn hfraction
    have hcontains := contains_shortest hm e
    have hpos := digits_shortest_pos hm e
    have hsmall := lt_of_contains h hm he hcontains
    rw [Layout.finite, if_neg hm.ne', Layout.report_decimal_eq hpos.ne' (by omega) hsmall]
    rcases hplaces with hplaces | hplaces
    · refine ⟨10 * (Decimal.shortest m e).digits, ?_, ?_⟩
      · rw [hplaces, Layout.positional_one, text_hundredths_one hlast]
      · rw [hplaces] at hcontains
        convert hcontains using 1
        push_cast
        ring
    · refine ⟨(Decimal.shortest m e).digits, ?_, ?_⟩
      · rw [hplaces, Layout.positional_two, text_hundredths_two hlast]
      · rw [hplaces] at hcontains
        convert hcontains using 1
        norm_num
        ring

/-! ## Rounding to hundredths -/

/-- The number of hundredths that a finite value is rounded to, without its sign. -/
def roundedHundredths (m : Nat) (e : Int) : Nat := roundHalfUp (100 * (ratio m e).1) (ratio m e).2

theorem isNearestWhole_roundedHundredths (m : Nat) (e : Int) :
    IsNearestWhole (100 * (m * 2 ^ e)) (roundedHundredths m e : Nat) := by
  refine isNearestWhole_roundHalfUp (ratio_snd_pos m e) ?_
  rw [Nat.cast_mul, ratio_fst]
  push_cast
  ring

theorem isNearestWhole_signed (negative : Bool) (m : Nat) (e : Int) :
    IsNearestWhole (100 * Exact.withSign negative (m * 2 ^ e)) (signed negative (roundedHundredths m e)) := by
  have hscaled : 100 * Exact.withSign negative (m * 2 ^ e) = Exact.withSign negative (100 * (m * 2 ^ e)) := by
    cases negative <;> simp [Exact.withSign]
  rw [hscaled]
  exact (isNearestWhole_roundedHundredths m e).withSign negative

theorem abs_sub_roundedHundredths (m : Nat) (e : Int) :
    (roundedHundredths m e : ℚ) - 1 / 2 ≤ 100 * (m * 2 ^ e) ∧
      100 * (m * 2 ^ e) ≤ (roundedHundredths m e : ℚ) + 1 / 2 := by
  have hnear := (isNearestWhole_roundedHundredths m e).near
  rw [Int.cast_natCast] at hnear
  obtain ⟨hlow, hhigh⟩ := abs_le.1 hnear
  exact ⟨by linarith, by linarith⟩

/-- Rounding does not lead beyond the largest double: the large ones are whole. -/
theorem roundedHundredths_le {m : Nat} {e : Int} (h : Normal m e) :
    (roundedHundredths m e / 100 : ℚ) ≤ (2 ^ 53 - 1) * 2 ^ maxExponent := by
  have hmq : (m : ℚ) + 1 ≤ 2 ^ 53 := by exact_mod_cast h.lt
  rcases le_or_gt 0 e with he | he
  · have hone := ratio_snd_of_nonneg m he
    have hwhole : roundedHundredths m e = 100 * (ratio m e).1 := by
      rw [roundedHundredths, hone, roundHalfUp]
      omega
    have hvalue : (roundedHundredths m e / 100 : ℚ) = m * 2 ^ e := by
      rw [hwhole, Nat.cast_mul, ratio_fst, hone]
      push_cast
      ring
    rw [hvalue]
    exact mul_le_mul (by linarith) (zpow_le_zpow_right₀ (by norm_num) h.le_max) (zpow_pos_two e).le (by norm_num)
  · have hlow := (abs_sub_roundedHundredths m e).1
    have hunit : (2 : ℚ) ^ e ≤ 2 ^ (-1 : Int) := zpow_le_zpow_right₀ (by norm_num) (by omega)
    have hvalue : (m * 2 ^ e : ℚ) ≤ 2 ^ 53 * 2 ^ (-1 : Int) :=
      mul_le_mul (by linarith) hunit (zpow_pos_two e).le (by norm_num)
    have hmax : (1 : ℚ) ≤ 2 ^ maxExponent := one_le_zpow₀ (by norm_num) (by decide)
    rw [zpow_neg_one] at hvalue
    linarith

theorem toHundredths_eq (negative : Bool) (m : Nat) (e : Int) :
    toHundredths (.finite negative m e) = nearest negative (roundedHundredths m e) 100 := rfl

theorem exists_toHundredths {m : Nat} {e : Int} (h : Normal m e) (hpos : 0 < roundedHundredths m e)
    (negative : Bool) :
    ∃ m' e', Normal m' e' ∧ 0 < m' ∧ toHundredths (.finite negative m e) = .finite negative m' e' ∧
      (interval m' e').Contains (roundedHundredths m e / 100) := by
  have hone : (1 : ℚ) ≤ roundedHundredths m e := by exact_mod_cast hpos
  refine exists_nearest (by decide) ?_ ?_ (roundedHundredths_le h) negative
  · show (roundedHundredths m e : ℚ) = roundedHundredths m e / 100 * (100 : Nat)
    push_cast
    ring
  · have hmin : (2 : ℚ) ^ minExponent ≤ 2 ^ (-7 : Int) := zpow_le_zpow_right₀ (by norm_num) (by decide)
    norm_num at hmin
    linarith

/-- Below ten to the thirteenth a double stands for at most one number of hundredths. -/
theorem eq_of_contains_hundredths {m : Nat} {e : Int} (h : Normal m e) (hm : 0 < m) {n k : Nat}
    (hn : (interval m e).Contains (n / 100)) (hk : (interval m e).Contains (k / 100))
    (hsmall : n ≤ 10 ^ 15) : n = k := by
  obtain ⟨⟨hn_low, hn_high⟩, -⟩ := bounds_of_contains hn hm
  obtain ⟨⟨hk_low, hk_high⟩, -⟩ := bounds_of_contains hk hm
  have hsmall : (n : ℚ) ≤ 10 ^ 15 := by exact_mod_cast hsmall
  have hfine : e ≤ -7 := by
    by_contra hcoarse
    have hfull := h.full.resolve_right (by simp only [minExponent]; omega)
    have hfull : (2 ^ 52 : ℚ) ≤ m := by exact_mod_cast hfull
    have hunit : (2 : ℚ) ^ (-e) ≤ 2 ^ (6 : Nat) := by
      rw [← zpow_natCast]
      exact zpow_le_zpow_right₀ (by norm_num) (by push_cast; omega)
    have hproduct : (n / 100 : ℚ) * 2 ^ (-e) ≤ 10 ^ 13 * 2 ^ 6 :=
      mul_le_mul (by linarith) hunit (zpow_pos_two _).le (by norm_num)
    linarith
  have hunit : (2 : ℚ) ^ (7 : Nat) ≤ 2 ^ (-e) := by
    rw [← zpow_natCast]
    exact zpow_le_zpow_right₀ (by norm_num) (by push_cast; omega)
  generalize (2 : ℚ) ^ (-e) = unit at *
  -- Different numbers of hundredths are more than a unit apart.
  have hle {a b : Nat} (h : (a / 100 : ℚ) * unit ≤ b / 100 * unit + 1) : a ≤ b := by
    by_contra hlt
    have hlt : (b : ℚ) + 1 ≤ a := by exact_mod_cast not_le.1 hlt
    have := mul_le_mul_of_nonneg_right hlt (show (0 : ℚ) ≤ unit by linarith)
    linarith
  exact le_antisymm (hle (by linarith)) (hle (by linarith))

theorem hundredthsText_signed {n : Nat} (hn : 0 < n) (negative : Bool) :
    hundredthsText (signed negative n) = String.ofList (Layout.signed negative (hundredths n).text) := by
  rw [hundredthsText, decide_signed_lt_zero hn, natAbs_signed]

section Coordinate

variable {x : Float} {negative : Bool} {m : Nat} {e : Int} (hx : Exact.ofFloat x = .finite negative m e)
include hx

theorem coordinate_of_eq_zero (h : roundedHundredths m e = 0) : coordinate x = "0" := by
  rw [coordinate, hx, toHundredths_eq, h]
  rfl

theorem exists_coordinate_eq (hpos : 0 < roundedHundredths m e) :
    ∃ m' e', Normal m' e' ∧ 0 < m' ∧ coordinate x = String.ofList (literalOf (.finite negative m' e')) ∧
      (interval m' e').Contains (roundedHundredths m e / 100) := by
  have hnormal := isNormal_ofFloat x
  rw [hx] at hnormal
  obtain ⟨m', e', h', hm', hrounded, hcontains⟩ := exists_toHundredths hnormal hpos negative
  exact ⟨m', e', h', hm', by rw [coordinate, hx, hrounded], hcontains⟩

end Coordinate

/-- **Below ten to the thirteenth a coordinate is the text of the nearest number of
hundredths**, a half going away from zero. -/
theorem coordinate_eq_hundredths {x : Float} {v : ℚ} (hx : (Exact.ofFloat x).value? = some v)
    (hv : |v| < 10 ^ 13) :
    ∃ n : ℤ, IsNearestWhole (100 * v) n ∧ coordinate x = hundredthsText n := by
  obtain ⟨negative, m, e, heq, rfl⟩ := exists_finite_of_value? hx
  refine ⟨signed negative (roundedHundredths m e), isNearestWhole_signed negative m e, ?_⟩
  rcases Nat.eq_zero_or_pos (roundedHundredths m e) with h0 | hpos
  · rw [coordinate_of_eq_zero heq h0, h0]
    cases negative <;> rfl
  · obtain ⟨m', e', h', hm', htext, hcontains⟩ := exists_coordinate_eq heq hpos
    obtain ⟨k, hliteral, hk⟩ := exists_hundredths h' hm' hcontains negative
    have hsmall : roundedHundredths m e ≤ 10 ^ 15 := by
      rw [abs_withSign] at hv
      have hlow := (abs_sub_roundedHundredths m e).1
      have := (le_abs_self _).trans_lt hv
      have : (roundedHundredths m e : ℚ) < 10 ^ 15 + 1 := by linarith
      have : roundedHundredths m e < 10 ^ 15 + 1 := by exact_mod_cast this
      omega
    rw [htext, hliteral, hundredthsText_signed hpos, eq_of_contains_hundredths h' hm' hcontains hk hsmall]

/-- A tie, that of twelve and a half hundredths below zero. -/
theorem coordinate_eq_hundredths_tie :
    (Exact.ofFloat (-0.125)).value? = some (-1 / 8) ∧ |(-1 / 8 : ℚ)| < 10 ^ 13 ∧
      IsNearestWhole (100 * (-1 / 8)) (-13) ∧ coordinate (-0.125) = "-0.13" := by
  have hx : (Exact.ofFloat (-0.125)).value? = some (-1 / 8) := by
    rw [show Exact.ofFloat (-0.125) = .finite true (2 ^ 52) (-55) by decide +kernel, value?, withSign]
    norm_num
  have hv : |(-1 / 8 : ℚ)| < 10 ^ 13 := by norm_num
  have hnearest : IsNearestWhole (100 * (-1 / 8)) (-13) := ⟨by norm_num, by norm_num⟩
  obtain ⟨n, hn, htext⟩ := coordinate_eq_hundredths hx hv
  rw [hn.unique hnearest] at htext
  exact ⟨hx, hv, hnearest, htext.trans (by decide)⟩

/-! ## The form of the text -/

namespace Grammar

open RegularExpression (char)

/-- One of these characters. -/
def oneOf (cs : List Char) : RegularExpression Char := (cs.map char).sum

def digit : RegularExpression Char := oneOf "0123456789".toList

def nonzeroDigit : RegularExpression Char := oneOf "123456789".toList

/-- A whole number without zeros in front. -/
def whole : RegularExpression Char := char '0' + nonzeroDigit * digit.star

/-- One place or two, of which the last is no zero. -/
def fraction : RegularExpression Char := char '.' * (1 + digit) * nonzeroDigit

/-- Zero, or a number with at most two places. -/
def number : RegularExpression Char := char '0' + (1 + char '-') * whole * (1 + fraction)

theorem mem_oneOf {c : Char} {cs : List Char} (h : c ∈ cs) : [c] ∈ (oneOf cs).matches' := by
  induction cs with
  | nil => cases h
  | cons d rest ih =>
    rcases List.mem_cons.1 h with rfl | h
    · exact .inl rfl
    · exact .inr (ih h)

theorem digitChar_mem_digit (n : Nat) : [(n % 10).digitChar] ∈ digit.matches' := by
  have hall : ∀ d < 10, d.digitChar ∈ "0123456789".toList := by decide
  exact mem_oneOf (hall _ (Nat.mod_lt n (by decide)))

theorem digitChar_mem_nonzeroDigit {n : Nat} (h : n % 10 ≠ 0) : [(n % 10).digitChar] ∈ nonzeroDigit.matches' := by
  have hall : ∀ d < 10, d ≠ 0 → d.digitChar ∈ "123456789".toList := by decide
  exact mem_oneOf (hall _ (Nat.mod_lt n (by decide)) h)

theorem digitsOf_mem_whole (n : Nat) : Layout.digitsOf n ∈ whole.matches' := by
  rcases Nat.eq_zero_or_pos n with rfl | hpos
  · exact .inl rfl
  · right
    induction n using Nat.strongRecOn with
    | ind n ih =>
      rcases Nat.lt_or_ge n 10 with h | h
      · have hfirst := digitChar_mem_nonzeroDigit (n := n) (by omega)
        rw [Nat.mod_eq_of_lt h] at hfirst
        rw [Layout.digitsOf_of_lt h]
        exact append_mem_mul hfirst (nil_mem_star digit)
      · obtain ⟨first, hfirst, rest, hrest, heq⟩ := ih (n / 10) (by omega) (by omega)
        rw [Layout.digitsOf_eq_append h, ← heq]
        show first ++ rest ++ [(n % 10).digitChar] ∈ _
        rw [List.append_assoc]
        exact append_mem_mul hfirst (append_mem_star hrest (mem_star (digitChar_mem_digit n)))

theorem fractionText_mem (n : Nat) : (hundredths n).fractionText ∈ (1 + fraction).matches' := by
  by_cases hwhole : n % 100 = 0
  · have htext : (hundredths n).fractionText = [] := by simp [hundredths, Parts.fractionText, hwhole]
    rw [htext]
    exact .inl rfl
  · right
    by_cases hone : n % 10 = 0
    · have htext : (hundredths n).fractionText = ['.'] ++ [] ++ [(n / 10 % 10).digitChar] := by
        simp [hundredths, Parts.fractionText, hwhole, hone]
      rw [htext]
      exact append_mem_mul (append_mem_mul (r := char '.') rfl (.inl rfl))
        (digitChar_mem_nonzeroDigit (by omega))
    · have htext : (hundredths n).fractionText = ['.'] ++ [(n / 10 % 10).digitChar] ++ [(n % 10).digitChar] := by
        simp [hundredths, Parts.fractionText, hwhole, hone]
      rw [htext]
      exact append_mem_mul (append_mem_mul (r := char '.') rfl (.inr (digitChar_mem_digit (n / 10))))
        (digitChar_mem_nonzeroDigit hone)

theorem hundredths_mem_number (n : Nat) (negative : Bool) :
    Layout.signed negative (hundredths n).text ∈ number.matches' := by
  right
  have htext : Layout.signed negative (hundredths n).text =
      (if negative then ['-'] else []) ++ (hundredths n).whole ++ (hundredths n).fractionText := by
    cases negative <;> simp [Layout.signed, Parts.text, Parts.exponentText, hundredths]
  rw [htext]
  refine append_mem_mul (append_mem_mul ?_ (digitsOf_mem_whole _)) (fractionText_mem n)
  cases negative with
  | true => exact .inr rfl
  | false => exact .inl rfl

end Grammar

/-! ## Any size -/

theorem digitCount_roundedHundredths {m : Nat} {e : Int} (h : Normal m e) :
    digitCount (roundedHundredths m e) ≤ maxDigits := by
  refine (Nat.length_toDigits_le_iff (by decide) (by decide)).2 ?_
  have hle := roundedHundredths_le h
  have hmax : (2 : ℚ) ^ maxExponent ≤ 10 ^ (324 : Nat) :=
    calc (2 : ℚ) ^ maxExponent ≤ 2 ^ ((3 * 324 : Nat) : Int) := zpow_le_zpow_right₀ (by norm_num) (by decide)
      _ ≤ 10 ^ (324 : Nat) := (zpow_natCast _ _).trans_le (two_pow_le_ten_pow 324)
  have hroom : (10 : ℚ) ^ maxDigits = 10 ^ 76 * 10 ^ 324 := pow_add 10 76 324
  have hpos : (0 : ℚ) < 10 ^ 324 := pow_pos (by norm_num) 324
  have hlt : (roundedHundredths m e : ℚ) < 10 ^ maxDigits := by
    rw [hroom]
    generalize (10 : ℚ) ^ 324 = unit at *
    linarith
  exact_mod_cast hlt

theorem coordinate?_eq {x : Float} (hx : (Exact.ofFloat x).isFinite = true) : coordinate? x = some (coordinate x) := by
  obtain ⟨negative, m, e, heq, hnormal⟩ := exists_ofFloat_eq hx
  have hroom := digitCount_roundedHundredths hnormal
  rw [coordinate?, coordinate, heq, toHundredths_eq]
  show Option.map _ (if digitCount (roundedHundredths m e) ≤ maxDigits then
    some (nearest negative (roundedHundredths m e) 100) else none) = _
  rw [if_pos hroom, Option.map_some]

theorem isClosest_zero : IsClosest 0 0 := by
  refine isClosest_self ?_
  rw [show Exact.ofFloat 0 = .finite false 0 minExponent by decide +kernel, value?, Nat.cast_zero, zero_mul]
  rfl

theorem literalOf_ne_neg_zero {m : Nat} {e : Int} (h : Normal m e) (hm : 0 < m) (negative : Bool) :
    String.ofList (literalOf (.finite negative m e)) ≠ "-0" := by
  intro htext
  have hread := parseFloat?_literalOf h hm negative
  rw [htext, show parseFloat? "-0" = some (-0.0) by decide, Option.some.injEq] at hread
  have hzero : Exact.ofFloat (-0.0) = .finite true 0 minExponent := by decide +kernel
  rw [hread, ofFloat_toFloat h negative] at hzero
  cases hzero
  exact absurd hm (lt_irrefl 0)

/-- **A coordinate of any size has at most two places and no exponent, and is read as the
double closest to the nearest number of hundredths**, a half going away from zero. There is
room for the hundredths of every double. -/
theorem coordinate_reads_closest {x : Float} {v : ℚ} (hx : (Exact.ofFloat x).value? = some v) :
    coordinate? x = some (coordinate x) ∧ (coordinate x).toList ∈ Grammar.number.matches' ∧
      coordinate x ≠ "-0" ∧
      ∃ (n : ℤ) (y : Float), IsNearestWhole (100 * v) n ∧ parseFloat? (coordinate x) = some y ∧
        IsClosest y (n / 100) := by
  obtain ⟨negative, m, e, heq, rfl⟩ := exists_finite_of_value? hx
  refine ⟨coordinate?_eq (by rw [heq]; rfl), ?_⟩
  have hnearest := isNearestWhole_signed negative m e
  rcases Nat.eq_zero_or_pos (roundedHundredths m e) with h0 | hpos
  · rw [coordinate_of_eq_zero heq h0]
    refine ⟨.inl rfl, by decide, _, 0, hnearest, by decide, ?_⟩
    rw [h0, cast_signed]
    convert isClosest_zero using 1
    cases negative <;> simp [withSign]
  · obtain ⟨m', e', h', hm', htext, hcontains⟩ := exists_coordinate_eq heq hpos
    obtain ⟨k, hliteral, -⟩ := exists_hundredths h' hm' hcontains negative
    have hclosest := isClosest_of_contains hm' hcontains h' negative
    have hvalue : withSign negative (roundedHundredths m e / 100) =
        (signed negative (roundedHundredths m e) : ℤ) / 100 := by
      rw [cast_signed]
      cases negative
      · rfl
      · exact (neg_div _ _).symm
    rw [htext]
    refine ⟨?_, literalOf_ne_neg_zero h' hm' negative, _, _, hnearest, parseFloat?_literalOf h' hm' negative,
      hvalue ▸ hclosest⟩
    rw [hliteral, String.toList_ofList]
    exact Grammar.hundredths_mem_number k negative

/-- So large that the next double is an eighth away, and written with one place though the
nearest number of hundredths has two. -/
theorem coordinate_reads_closest_large :
    (Exact.ofFloat 562949953421312.125).value? = some (562949953421312 + 1 / 8) ∧
      IsNearestWhole (100 * (562949953421312 + 1 / 8)) 56294995342131213 ∧
      coordinate 562949953421312.125 = "562949953421312.1" ∧
      parseFloat? "562949953421312.1" = some 562949953421312.125 ∧
      IsClosest 562949953421312.125 (56294995342131213 / 100) := by
  have hx : (Exact.ofFloat 562949953421312.125).value? = some (562949953421312 + 1 / 8) := by
    rw [show Exact.ofFloat 562949953421312.125 = .finite false (2 ^ 52 + 1) (-3) by decide +kernel, value?, withSign]
    norm_num
  have hnearest : IsNearestWhole (100 * (562949953421312 + 1 / 8)) 56294995342131213 := ⟨by norm_num, by norm_num⟩
  have htext : coordinate 562949953421312.125 = "562949953421312.1" := by decide +kernel
  have hread : parseFloat? "562949953421312.1" = some 562949953421312.125 := by decide +kernel
  obtain ⟨-, -, -, n, y, hn, hy, hclosest⟩ := coordinate_reads_closest hx
  rw [htext, hread, Option.some.injEq] at hy
  rw [hn.unique hnearest, ← hy, Int.cast_ofNat] at hclosest
  exact ⟨hx, hnearest, htext, hread, hclosest⟩

end SketchTurtle.Turtle
