/-
Rounding to the nearest double.

A positive double stands for an interval of reals: those that are nearer to it
than to any other double, and the ends if its mantissa is even
(`Interval.Contains`). Every quotient in the interval is rounded to that double
(`nearest_eq`), and so is every decimal, however its digits and its exponent
share out the number (`ofDecimal_eq`).
-/
import SketchTurtle.Number.Shortest
import SketchTurtle.Proofs.Number.Order
import Mathlib.Algebra.Order.Field.Power
import Mathlib.Algebra.Order.Ring.Rat
import Mathlib.Tactic.FieldSimp
import Mathlib.Tactic.Linarith
import Mathlib.Tactic.Positivity

namespace SketchTurtle

/-! ## Powers with a whole exponent -/

theorem pow_toNat {b : ℚ} (hb : b ≠ 0) (e : Int) : b ^ e.toNat = b ^ e * b ^ (-e).toNat := by
  rcases le_total 0 e with h | h
  · lift e to Nat using h
    simp
  · obtain ⟨n, rfl⟩ : ∃ n : Nat, e = -n := ⟨e.natAbs, by omega⟩
    simp [hb]

theorem zpow_pos_two (e : Int) : (0 : ℚ) < 2 ^ e := zpow_pos (by norm_num) e

theorem zpow_pos_ten (e : Int) : (0 : ℚ) < 10 ^ e := zpow_pos (by norm_num) e

theorem zpow_two_add (a b : Int) : (2 : ℚ) ^ (a + b) = 2 ^ a * 2 ^ b :=
  zpow_add₀ (by norm_num) a b

theorem mul_zpow_neg_mul (x : ℚ) (e : Int) : x * 2 ^ (-e) * 2 ^ e = x := by
  rw [mul_assoc, ← zpow_two_add, Int.add_left_neg, zpow_zero, mul_one]

/-! ## Rounding a quotient -/

/-- What is left over decides which of the two neighbours is near enough. -/
theorem roundHalfEven_eq_of_le {num den m : Nat} (hden : 0 < den) (hle : 2 * (m * den) ≤ 2 * num + den)
    (hge : 2 * num ≤ 2 * (m * den) + den)
    (hodd : m % 2 = 1 → 2 * (m * den) < 2 * num + den ∧ 2 * num < 2 * (m * den) + den) :
    roundHalfEven num den = m := by
  have hsplit : num / den * den + num % den = num := Nat.div_add_mod' num den
  have hrest : num % den < den := Nat.mod_lt num hden
  have below {a b : Nat} (h : a * den < b * den) : a < b := Nat.lt_of_mul_lt_mul_right h
  simp only [roundHalfEven]
  generalize num / den = q at *
  generalize num % den = r at *
  split
  · have h1 : m < q + 1 := below (by rw [Nat.add_mul]; omega)
    have h2 : q < m + 1 := below (by rw [Nat.add_mul]; omega)
    omega
  · have h1 : m < q + 2 := below (by rw [Nat.add_mul]; omega)
    split
    · have h2 : q < m + 1 := below (by rw [Nat.add_mul]; omega)
      rcases Nat.mod_two_eq_zero_or_one m with heven | hm
      · omega
      · obtain ⟨h3, h4⟩ := hodd hm
        have h5 : m < q + 1 := below (by rw [Nat.add_mul]; omega)
        have h6 : q < m := below (by omega)
        omega
    · have h2 : q < m := below (by omega)
      omega

/-- A quotient is rounded to a whole number that is at most a half away, and nearer
than that unless the number is even. -/
theorem roundHalfEven_eq {num den m : Nat} {x : ℚ} (hden : 0 < den) (hx : (num : ℚ) = x * den)
    (hlow : (m : ℚ) - 1 / 2 ≤ x) (hhigh : x ≤ m + 1 / 2)
    (hodd : m % 2 = 1 → (m : ℚ) - 1 / 2 < x ∧ x < m + 1 / 2) : roundHalfEven num den = m := by
  have hdenq : (0 : ℚ) < den := by exact_mod_cast hden
  refine roundHalfEven_eq_of_le hden ?_ ?_ fun h => ⟨?_, ?_⟩
  · have h := mul_le_mul_of_nonneg_right hlow hdenq.le
    have : (2 * (m * den) : ℚ) ≤ 2 * num + den := by rw [hx]; linarith
    exact_mod_cast this
  · have h := mul_le_mul_of_nonneg_right hhigh hdenq.le
    have : (2 * num : ℚ) ≤ 2 * (m * den) + den := by rw [hx]; linarith
    exact_mod_cast this
  · have h := mul_lt_mul_of_pos_right (hodd h).1 hdenq
    have : (2 * (m * den) : ℚ) < 2 * num + den := by rw [hx]; linarith
    exact_mod_cast this
  · have h := mul_lt_mul_of_pos_right (hodd h).2 hdenq
    have : (2 * num : ℚ) < 2 * (m * den) + den := by rw [hx]; linarith
    exact_mod_cast this

namespace Exact

/-! ## The unit of a quotient -/

theorem log2_bounds {n : Nat} (h : n ≠ 0) : (2 : ℚ) ^ (n.log2 : Int) ≤ n ∧ (n : ℚ) < 2 ^ ((n.log2 : Int) + 1) := by
  have hle := Nat.log2_self_le h
  have hlt := Nat.lt_log2_self (n := n)
  constructor
  · rw [zpow_natCast]
    exact_mod_cast hle
  · exact_mod_cast hlt

section Quotient

variable {num den : Nat} {x : ℚ} (hden : 0 < den) (hx : (num : ℚ) = x * den)
include hden hx

theorem reaches_iff {e : Int} : reaches num den e = true ↔ 2 ^ e ≤ x := by
  have hpos : (0 : ℚ) < den * 2 ^ (-e).toNat := by positivity
  have h : reaches num den e = true ↔ (den * 2 ^ e.toNat : ℚ) ≤ num * 2 ^ (-e).toNat := by
    simp only [reaches, decide_eq_true_eq, Nat.pow_eq]
    exact_mod_cast Iff.rfl
  rw [h, hx, pow_toNat two_ne_zero e]
  constructor
  · intro h
    refine le_of_mul_le_mul_right ?_ hpos
    linarith
  · intro h
    have := mul_le_mul_of_nonneg_right h hpos.le
    linarith

theorem exists_leading (hpos : 0 < x) :
    ∃ l : Int, unitExponent num den = max (l - 52) minExponent ∧ 2 ^ l ≤ x ∧ x < 2 ^ (l + 1) := by
  have hdenq : (0 : ℚ) < den := by exact_mod_cast hden
  have hnum : num ≠ 0 := by
    rintro rfl
    rw [Nat.cast_zero] at hx
    nlinarith
  obtain ⟨hnum_ge, hnum_lt⟩ := log2_bounds hnum
  obtain ⟨hden_ge, hden_lt⟩ := log2_bounds hden.ne'
  have hguess : (num.log2 : Int) = ((num.log2 : Int) - den.log2) + den.log2 := by omega
  generalize hg : (num.log2 : Int) - den.log2 = guess at hguess
  rw [hguess] at hnum_ge hnum_lt
  have hupper : x < 2 ^ (guess + 1) := by
    refine lt_of_mul_lt_mul_right ?_ hdenq.le
    calc x * den = num := hx.symm
      _ < 2 ^ (guess + 1) * 2 ^ (den.log2 : Int) := by
        rw [← zpow_two_add]
        convert hnum_lt using 2
        omega
      _ ≤ 2 ^ (guess + 1) * den := mul_le_mul_of_nonneg_left hden_ge (zpow_pos_two _).le
  have hlower : 2 ^ (guess - 1) < x := by
    refine lt_of_mul_lt_mul_right ?_ hdenq.le
    calc (2 : ℚ) ^ (guess - 1) * den < 2 ^ (guess - 1) * 2 ^ ((den.log2 : Int) + 1) :=
          mul_lt_mul_of_pos_left hden_lt (zpow_pos_two _)
      _ ≤ num := by
        rw [← zpow_two_add]
        convert hnum_ge using 2
        omega
      _ = x * den := hx
  simp only [unitExponent, hg]
  by_cases h : reaches num den guess = true
  · exact ⟨guess, by rw [if_pos h], (reaches_iff hden hx).1 h, hupper⟩
  · refine ⟨guess - 1, by rw [if_neg h], hlower.le, ?_⟩
    rw [Int.sub_add_cancel]
    exact lt_of_not_ge fun hle => h ((reaches_iff hden hx).2 hle)

/-- The unit of the doubles among which a quotient lies. -/
theorem unitExponent_eq {e : Int} (hpos : 0 < x) (hmin : minExponent ≤ e)
    (hlow : 2 ^ (e + 52) ≤ x ∨ e = minExponent) (hhigh : x < 2 ^ (e + 53)) :
    unitExponent num den = e := by
  obtain ⟨l, hl, hle, hlt⟩ := exists_leading hden hx hpos
  have hl' : l < e + 53 := (zpow_lt_zpow_iff_right₀ (by norm_num)).1 (hle.trans_lt hhigh)
  rw [hl]
  rcases hlow with h | h
  · have : e + 52 < l + 1 := (zpow_lt_zpow_iff_right₀ (by norm_num)).1 (h.trans_lt hlt)
    omega
  · omega

omit hden in
theorem scaled_quotient (e : Int) :
    ((num * Nat.pow 2 (-e).toNat : Nat) : ℚ) = x * 2 ^ (-e) * (den * Nat.pow 2 e.toNat : Nat) := by
  have h := pow_toNat (two_ne_zero (α := ℚ)) (-e)
  rw [Int.neg_neg] at h
  simp only [Nat.pow_eq, Nat.cast_mul, Nat.cast_pow, Nat.cast_ofNat]
  rw [hx, h]
  ring

end Quotient

theorem ratio_fst (m : Nat) (e : Int) : ((ratio m e).1 : ℚ) = m * 2 ^ e * (ratio m e).2 := by
  simp only [ratio, Nat.pow_eq, Nat.cast_mul, Nat.cast_pow, Nat.cast_ofNat]
  rw [pow_toNat two_ne_zero e]
  ring

theorem ratio_snd_pos (m : Nat) (e : Int) : 0 < (ratio m e).2 := Nat.two_pow_pos _

theorem ratio_snd_of_nonneg (m : Nat) {e : Int} (h : 0 ≤ e) : (ratio m e).2 = 1 := by
  simp only [ratio, Nat.pow_eq]
  rw [Int.toNat_of_nonpos (by omega), Nat.pow_zero]

/-- Where nothing is left over, the whole number is the number denoted. -/
theorem ratio_div_eq {m : Nat} {e : Int} (h : (ratio m e).1 % (ratio m e).2 = 0) :
    (((ratio m e).1 / (ratio m e).2 : Nat) : ℚ) = m * 2 ^ e := by
  have hden : ((ratio m e).2 : ℚ) ≠ 0 := by exact_mod_cast (ratio_snd_pos m e).ne'
  refine mul_right_cancel₀ hden ?_
  rw [← ratio_fst, ← Nat.cast_mul, Nat.div_mul_cancel (Nat.dvd_of_mod_eq_zero h)]

end Exact

/-! ## The interval of a double -/

namespace Shortest.Interval

/-- The real lies in the interval. -/
def Contains (i : Interval) (x : ℚ) : Prop :=
  if i.closed then i.low * 2 ^ i.exponent ≤ x ∧ x ≤ i.high * 2 ^ i.exponent
  else i.low * 2 ^ i.exponent < x ∧ x < i.high * 2 ^ i.exponent

theorem Contains.low_le {i : Interval} {x : ℚ} (h : i.Contains x) : i.low * 2 ^ i.exponent ≤ x := by
  unfold Contains at h
  split at h
  · exact h.1
  · exact h.1.le

theorem Contains.le_high {i : Interval} {x : ℚ} (h : i.Contains x) : x ≤ i.high * 2 ^ i.exponent := by
  unfold Contains at h
  split at h
  · exact h.2
  · exact h.2.le

end Shortest.Interval

namespace Exact

open Shortest

section Interval

variable {m : Nat} {e : Int} {x : ℚ} (hx : (interval m e).Contains x)

theorem quarters (n : ℚ) (e : Int) : n * 2 ^ (e - 2) * 2 ^ (-e) = n / 4 := by
  rw [mul_assoc, ← zpow_two_add, show e - 2 + -e = -2 by omega]
  norm_num
  ring

include hx

/-- A real in the interval is at most half a unit away, and nearer than that if the
mantissa is odd. -/
theorem bounds_of_contains (hm : 0 < m) :
    ((m : ℚ) - 1 / 2 ≤ x * 2 ^ (-e) ∧ x * 2 ^ (-e) ≤ m + 1 / 2) ∧
      (m % 2 = 1 → (m : ℚ) - 1 / 2 < x * 2 ^ (-e) ∧ x * 2 ^ (-e) < m + 1 / 2) := by
  have hu := zpow_pos_two (-e)
  have hlow : (4 * m - 2 : ℚ) ≤ (interval m e).low := by
    have : 4 * m ≤ (interval m e).low + 2 := by
      simp only [interval]
      split <;> omega
    have : (4 * m : ℚ) ≤ (interval m e).low + 2 := by exact_mod_cast this
    linarith
  have hhigh : ((interval m e).high : ℚ) = 4 * m + 2 := by simp [interval]
  have hle := mul_le_mul_of_nonneg_right hx.low_le hu.le
  have hge := mul_le_mul_of_nonneg_right hx.le_high hu.le
  have hexp : (interval m e).exponent = e - 2 := rfl
  rw [hexp, quarters] at hle hge
  refine ⟨⟨by linarith, by linarith⟩, fun hodd => ?_⟩
  have hopen : ¬ (interval m e).closed = true := by simp [interval, hodd]
  rw [Interval.Contains, if_neg hopen] at hx
  have hlt := mul_lt_mul_of_pos_right hx.1 hu
  have hgt := mul_lt_mul_of_pos_right hx.2 hu
  rw [hexp, quarters] at hlt hgt
  exact ⟨by linarith, by linarith⟩

/-- Below the least mantissa the interval reaches half as far. -/
theorem low_of_contains (hleast : m = 2 ^ 52) (he : minExponent < e) :
    (m : ℚ) - 1 / 4 ≤ x * 2 ^ (-e) := by
  have hlow : (interval m e).low + 1 = 4 * m := by
    simp only [interval, Nat.pow_eq]
    rw [if_pos ⟨hleast, he⟩]
    omega
  have hlow : ((interval m e).low : ℚ) + 1 = 4 * m := by exact_mod_cast hlow
  have hle := mul_le_mul_of_nonneg_right hx.low_le (zpow_pos_two (-e)).le
  have hexp : (interval m e).exponent = e - 2 := rfl
  rw [hexp, quarters] at hle
  linarith

theorem pos_of_contains (hm : 0 < m) : 0 < x := by
  have hm' : (1 : ℚ) ≤ m := by exact_mod_cast hm
  have hle := (bounds_of_contains hx hm).1.1
  refine pos_of_mul_pos_left (a := x) (b := 2 ^ (-e)) ?_ (zpow_pos_two _).le
  linarith

end Interval

theorem lt_zpow_iff {x : ℚ} {e : Int} (k : Nat) : x < 2 ^ (e + k) ↔ x * 2 ^ (-e) < 2 ^ k := by
  have hu := zpow_pos_two (-e)
  have hpow : (2 : ℚ) ^ (e + k) * 2 ^ (-e) = 2 ^ k := by
    rw [← zpow_two_add, show e + k + -e = (k : Int) by omega, zpow_natCast]
  rw [← hpow]
  exact (mul_lt_mul_iff_left₀ hu).symm

section Nearest

variable {negative : Bool} {num den m : Nat} {e : Int} {x : ℚ} (h : Normal m e) (hm : 0 < m)
  (hden : 0 < den) (hnum : (num : ℚ) = x * den) (hx : (interval m e).Contains x)
include h hm hden hnum hx

omit h in
theorem num_ne_zero_of_contains : num ≠ 0 := by
  rintro rfl
  have : 0 < x * den := mul_pos (pos_of_contains hx hm) (by exact_mod_cast hden)
  rw [← hnum] at this
  simp at this

/-- The quotient lies among the doubles of the same unit. -/
theorem nearest_eq_of_unit (hunit : 2 ^ (e + 52) ≤ x ∨ e = minExponent) :
    nearest negative num den = .finite negative m e := by
  obtain ⟨⟨hlow, hhigh⟩, hodd⟩ := bounds_of_contains hx hm
  have hmq : (m : ℚ) + 1 ≤ 2 ^ 53 := by exact_mod_cast h.lt
  have hunit : unitExponent num den = e := by
    refine unitExponent_eq hden hnum (pos_of_contains hx hm) h.min_le hunit ?_
    exact (lt_zpow_iff 53).2 (by linarith)
  have hround : roundHalfEven (num * Nat.pow 2 (-e).toNat) (den * Nat.pow 2 e.toNat) = m :=
    roundHalfEven_eq (Nat.mul_pos hden (Nat.two_pow_pos _)) (scaled_quotient hnum e) hlow hhigh hodd
  have hlt := h.lt
  have hmax := h.le_max
  simp only [nearest, if_neg (num_ne_zero_of_contains hm hden hnum hx), hunit, hround]
  rw [if_neg (by simp only [Nat.pow_eq]; omega), bounded, if_neg (by omega)]

/-- The quotient lies among the doubles of the next smaller unit, closer to the
least mantissa of its own. -/
theorem nearest_eq_of_lower (hlower : x < 2 ^ (e + 52)) (he : minExponent < e) :
    nearest negative num den = .finite negative m e := by
  have hbelow := (lt_zpow_iff 52).1 hlower
  have hleast : m = 2 ^ 52 := by
    have hfull : 2 ^ 52 ≤ m := h.full.resolve_right he.ne'
    have hlow := (bounds_of_contains hx hm).1.1
    have : (m : ℚ) < 2 ^ 52 + 1 := by linarith
    have : m < 2 ^ 52 + 1 := by exact_mod_cast this
    omega
  have hlow := low_of_contains hx hleast he
  rw [hleast] at hlow
  -- In the smaller unit the number is twice as large.
  have htwice : x * 2 ^ (-(e - 1)) = 2 * (x * 2 ^ (-e)) := by
    rw [show -(e - 1) = -e + 1 by omega, zpow_two_add]
    ring
  have hunit : unitExponent num den = e - 1 := by
    refine unitExponent_eq hden hnum (pos_of_contains hx hm) (by omega) (.inl ?_) ?_
    · rw [show e - 1 + 52 = e + (51 : Nat) by omega]
      refine le_of_not_gt fun hlt => ?_
      have := (lt_zpow_iff 51).1 hlt
      norm_num at this hlow
      linarith
    · rw [show e - 1 + 53 = e + 52 by omega]
      exact hlower
  have hround : roundHalfEven (num * Nat.pow 2 (-(e - 1)).toNat) (den * Nat.pow 2 (e - 1).toNat) =
      2 ^ 53 := by
    refine roundHalfEven_eq (Nat.mul_pos hden (Nat.two_pow_pos _)) (scaled_quotient hnum (e - 1)) ?_ ?_
      fun hodd => absurd hodd (by decide)
    · rw [htwice]
      norm_num at hlow ⊢
      linarith
    · rw [htwice]
      norm_num at hbelow ⊢
      linarith
  have hmax := h.le_max
  simp only [nearest, if_neg (num_ne_zero_of_contains hm hden hnum hx), hunit, hround]
  rw [if_pos (Nat.pow_eq).symm, Int.sub_add_cancel, bounded, if_neg (by omega), hleast, Nat.pow_eq]

/-- **Every quotient in the interval of a double is rounded to it.** -/
theorem nearest_eq : nearest negative num den = .finite negative m e := by
  by_cases hunit : 2 ^ (e + 52) ≤ x ∨ e = minExponent
  · exact nearest_eq_of_unit h hm hden hnum hx hunit
  · obtain ⟨hlower, he⟩ := not_or.1 hunit
    have hmin := h.min_le
    exact nearest_eq_of_lower h hm hden hnum hx (not_le.1 hlower) (by omega)

end Nearest

/-! ## Decimals -/

theorem ten_pow_digitCount_le {n : Nat} (hn : n ≠ 0) : 10 ^ (digitCount n - 1) ≤ n := by
  rcases Nat.eq_zero_or_pos (digitCount n - 1) with h | h
  · rw [h]
    omega
  · have hlen := (Nat.length_toDigits_le_iff (n := n) (by decide : 1 < 10) h).not.1
    have : ¬ (Nat.toDigits 10 n).length ≤ digitCount n - 1 := by
      rw [digitCount] at h ⊢
      omega
    exact not_lt.1 (hlen this)

theorem lt_ten_pow_digitCount (n : Nat) : n < 10 ^ digitCount n :=
  (Nat.length_toDigits_le_iff (by decide) Nat.length_toDigits_pos).1 le_rfl

/-- A decimal lies between two powers of ten. -/
theorem decimal_bounds {digits : Nat} (hdigits : digits ≠ 0) (exponent : Int) :
    (10 : ℚ) ^ (exponent + digitCount digits - 1) ≤ digits * 10 ^ exponent ∧
      (digits * 10 ^ exponent : ℚ) < 10 ^ (exponent + digitCount digits) := by
  have hten := zpow_pos_ten exponent
  constructor
  · have hle : (10 : ℚ) ^ (digitCount digits - 1) ≤ digits := by
      exact_mod_cast ten_pow_digitCount_le hdigits
    have hpos : 0 < digitCount digits := Nat.length_toDigits_pos
    rw [show exponent + digitCount digits - 1 = ((digitCount digits - 1 : Nat) : Int) + exponent by omega,
      zpow_add₀ (by norm_num), zpow_natCast]
    exact mul_le_mul_of_nonneg_right hle hten.le
  · have hlt : (digits : ℚ) < 10 ^ digitCount digits := by
      exact_mod_cast lt_ten_pow_digitCount digits
    rw [add_comm, zpow_add₀ (by norm_num), zpow_natCast]
    exact mul_lt_mul_of_pos_right hlt hten

theorem two_pow_le_ten_pow (n : Nat) : (2 : ℚ) ^ (3 * n) ≤ 10 ^ n := by
  rw [pow_mul]
  exact pow_le_pow_left₀ (by norm_num) (by norm_num) n

/-- The decimals that are doubles are of moderate size. -/
theorem leading_of_contains {m : Nat} {e : Int} {digits : Nat} {exponent : Int} (h : Normal m e)
    (hm : 0 < m) (hx : (interval m e).Contains (digits * 10 ^ exponent)) (hdigits : digits ≠ 0) :
    exponent + digitCount digits ≤ 400 ∧ -400 ≤ exponent + digitCount digits := by
  obtain ⟨⟨hlow, hhigh⟩, -⟩ := bounds_of_contains hx hm
  have hmin := h.min_le
  have hmax := h.le_max
  obtain ⟨hle, hlt⟩ := decimal_bounds hdigits exponent
  constructor
  · have hmq : (m : ℚ) + 1 ≤ 2 ^ 53 := by exact_mod_cast h.lt
    have hbelow : (digits * 10 ^ exponent : ℚ) < 2 ^ (e + (53 : Nat)) := (lt_zpow_iff 53).2 (by linarith)
    have hpow : (2 : ℚ) ^ (e + (53 : Nat)) ≤ 10 ^ (400 : Nat) :=
      calc (2 : ℚ) ^ (e + (53 : Nat)) ≤ 2 ^ ((3 * 400 : Nat) : Int) :=
            zpow_le_zpow_right₀ (by norm_num) (by simp only [maxExponent] at hmax; omega)
        _ ≤ 10 ^ (400 : Nat) := (zpow_natCast _ _).trans_le (two_pow_le_ten_pow 400)
    rw [← zpow_natCast] at hpow
    have := (zpow_lt_zpow_iff_right₀ (by norm_num)).1 (hle.trans_lt (hbelow.trans_le hpow))
    omega
  · have hmq : (1 : ℚ) ≤ m := by exact_mod_cast hm
    have habove : (2 : ℚ) ^ (e - 1) ≤ digits * 10 ^ exponent := by
      refine le_of_mul_le_mul_right ?_ (zpow_pos_two (-e))
      rw [← zpow_two_add, show e - 1 + -e = -1 by omega]
      rw [zpow_neg_one]
      linarith
    have hpow : ((10 : ℚ) ^ (400 : Nat))⁻¹ ≤ 2 ^ (e - 1) :=
      calc ((10 : ℚ) ^ (400 : Nat))⁻¹ ≤ (2 ^ (3 * 400))⁻¹ :=
            inv_anti₀ (by positivity) (two_pow_le_ten_pow 400)
        _ = 2 ^ (-((3 * 400 : Nat) : Int)) := by rw [zpow_neg, zpow_natCast]
        _ ≤ 2 ^ (e - 1) := zpow_le_zpow_right₀ (by norm_num) (by simp only [minExponent] at hmin; omega)
    rw [← zpow_natCast, ← zpow_neg] at hpow
    have := (zpow_lt_zpow_iff_right₀ (by norm_num)).1 ((hpow.trans habove).trans_lt hlt)
    omega

/-- **Every decimal in the interval of a double is read as that double.** -/
theorem ofDecimal_eq {negative : Bool} {m : Nat} {e : Int} {digits : Nat} {exponent : Int}
    (h : Normal m e) (hm : 0 < m) (hx : (interval m e).Contains (digits * 10 ^ exponent)) :
    ofDecimal negative digits exponent = .finite negative m e := by
  have hdigits : digits ≠ 0 := by
    rintro rfl
    have := pos_of_contains hx hm
    simp at this
  obtain ⟨hle, hge⟩ := leading_of_contains h hm hx hdigits
  simp only [ofDecimal]
  rw [if_neg hdigits, if_neg (by omega), if_neg (by omega)]
  refine nearest_eq h hm (Nat.pos_of_ne_zero (by simp)) ?_ hx
  simp only [Nat.pow_eq, Nat.cast_mul, Nat.cast_pow, Nat.cast_ofNat]
  rw [pow_toNat (by norm_num : (10 : ℚ) ≠ 0) exponent]
  ring

end Exact

end SketchTurtle
