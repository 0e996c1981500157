/-
Where the doubles end.

A quotient is rounded to an infinity from half a unit beyond the greatest double on
(`isFinite_nearest`): the half itself is as far from that double as from the power of two
that would follow, and of these two it is the power of two that has the even mantissa. So
there is no double for a whole number of magnitude `2 ^ 1024 - 2 ^ 970`, which is
`(2 ^ 54 - 1) * 2 ^ 970`, or more, and there is one for all others
(`floatOfInt?_eq_none_iff`).
-/
import SketchTurtle.Proofs.Number.Closest

namespace SketchTurtle

namespace Exact

/-! ## Rounding beyond the doubles -/

theorem isFinite_bounded {negative : Bool} {m : Nat} {e : Int} :
    (bounded negative m e).isFinite = true ↔ e ≤ maxExponent := by
  rw [bounded]
  split
  · next h => simp [isFinite, h]
  · next h => simpa [isFinite] using h

theorem le_of_maxExponent_lt {x : ℚ} {e : Int} (hfull : 2 ^ 52 ≤ x * 2 ^ (-e)) (he : maxExponent < e) :
    2 ^ 53 * 2 ^ maxExponent ≤ x := by
  have hle : ¬ x < 2 ^ (e + (52 : Nat)) := fun h => absurd ((lt_zpow_iff 52).1 h) (not_lt.2 hfull)
  calc (2 : ℚ) ^ 53 * 2 ^ maxExponent = 2 ^ (maxExponent + 53) := by
        rw [zpow_two_add, mul_comm]
        norm_num
    _ ≤ 2 ^ (e + (52 : Nat)) := zpow_le_zpow_right₀ (by norm_num) (by push_cast; omega)
    _ ≤ x := not_lt.1 hle

theorem lt_of_lt_maxExponent {x : ℚ} {e : Int} (hbelow : x * 2 ^ (-e) < 2 ^ 53) (he : e < maxExponent) :
    x < 2 ^ 52 * 2 ^ maxExponent := by
  calc x < 2 ^ (e + (53 : Nat)) := (lt_zpow_iff 53).2 hbelow
    _ ≤ 2 ^ (maxExponent + 52) := zpow_le_zpow_right₀ (by norm_num) (by push_cast; omega)
    _ = 2 ^ 52 * 2 ^ maxExponent := by
        rw [zpow_two_add, mul_comm]
        norm_num

/-- **A quotient is rounded to a finite double if, and only if, it is less than half a unit
beyond the greatest.** -/
theorem isFinite_nearest {num den : Nat} {x : ℚ} (hden : 0 < den) (hx : (num : ℚ) = x * den)
    (hpos : 0 < x) (negative : Bool) :
    (nearest negative num den).isFinite = true ↔ x < (2 ^ 53 - 1 / 2) * 2 ^ maxExponent := by
  have hnum : num ≠ 0 := by
    rintro rfl
    have := mul_pos hpos (by exact_mod_cast hden : (0 : ℚ) < den)
    simp [← hx] at this
  have hunit := zpow_pos_two maxExponent
  obtain ⟨hmin, hbelow, hfull⟩ := unitExponent_bounds hden hx hpos
  simp only [nearest, if_neg hnum]
  generalize unitExponent num den = e at *
  obtain ⟨⟨hle, hge⟩, hodd⟩ :=
    roundHalfEven_bounds (Nat.mul_pos hden (Nat.two_pow_pos e.toNat)) (scaled_quotient hx e)
  simp only [Nat.pow_eq] at *
  generalize roundHalfEven (num * 2 ^ (-e).toNat) (den * 2 ^ e.toNat) = m at *
  have hm53 : m < 2 ^ 53 + 1 := by
    have : (m : ℚ) < 2 ^ 53 + 1 := by linarith
    exact_mod_cast this
  rcases lt_trichotomy e maxExponent with he | he | he
  · -- The units are smaller than the greatest, and the next unit is still one of the doubles.
    have hfinite : (if m = 2 ^ 53 then bounded negative (2 ^ 52) (e + 1)
        else bounded negative m e).isFinite = true := by
      split
      · exact isFinite_bounded.2 (by omega)
      · exact isFinite_bounded.2 (by omega)
    refine iff_of_true hfinite ((lt_of_lt_maxExponent hbelow he).trans ?_)
    exact mul_lt_mul_of_pos_right (by norm_num) hunit
  · -- In the greatest units what counts is whether the mantissa is rounded up into the next.
    subst he
    have hfinite : (if m = 2 ^ 53 then bounded negative (2 ^ 52) (maxExponent + 1)
        else bounded negative m maxExponent).isFinite = true ↔ m ≠ 2 ^ 53 := by
      split
      · next h => exact iff_of_false (fun h' => absurd (isFinite_bounded.1 h') (by omega)) (not_not.2 h)
      · next h => exact iff_of_true (isFinite_bounded.2 le_rfl) h
    have hscaled : x < (2 ^ 53 - 1 / 2) * 2 ^ maxExponent ↔ x * 2 ^ (-maxExponent) < 2 ^ 53 - 1 / 2 := by
      conv_lhs => rw [← mul_zpow_neg_mul x maxExponent]
      exact mul_lt_mul_iff_left₀ hunit
    rw [hfinite, hscaled]
    constructor
    · intro h
      rcases Nat.lt_or_ge m (2 ^ 53 - 1) with hless | hmost
      · have : (m : ℚ) + 1 < 2 ^ 53 := by
          have : m + 1 < 2 ^ 53 := by omega
          exact_mod_cast this
        linarith
      · have hmost : m = 2 ^ 53 - 1 := by omega
        have := (hodd (by omega)).2
        rw [hmost] at this
        norm_num at this ⊢
        linarith
    · rintro hless rfl
      push_cast at hle
      linarith
  · -- The units are beyond those of the doubles.
    have hinfinite : ¬ (if m = 2 ^ 53 then bounded negative (2 ^ 52) (e + 1)
        else bounded negative m e).isFinite = true := by
      split
      · exact fun h => absurd (isFinite_bounded.1 h) (by omega)
      · exact fun h => absurd (isFinite_bounded.1 h) (by omega)
    have hfull := hfull.resolve_right (by rintro rfl; exact absurd he (by decide))
    refine iff_of_false hinfinite (not_lt.2 (le_trans ?_ (le_of_maxExponent_lt hfull he)))
    exact mul_le_mul_of_nonneg_right (by norm_num) hunit.le

end Exact

/-! ## Whole numbers -/

/-- **There is no double for a whole number if, and only if, its magnitude is
`(2 ^ 54 - 1) * 2 ^ 970` or more.** -/
theorem floatOfInt?_eq_none_iff {n : Int} : floatOfInt? n = none ↔ (2 ^ 54 - 1) * 2 ^ 970 ≤ n.natAbs := by
  have hnone : floatOfInt? n = none ↔ ¬ (Exact.ofInt n).isFinite = true := by
    rw [floatOfInt?]
    split <;> simp [*]
  rw [hnone]
  rcases Nat.eq_zero_or_pos n.natAbs with hzero | hpos
  · have hzero : n = 0 := Int.natAbs_eq_zero.1 hzero
    subst hzero
    exact iff_of_false (not_not.2 rfl) (not_le.2 (by positivity))
  · have hposq : (0 : ℚ) < n.natAbs := by exact_mod_cast hpos
    rw [Exact.ofInt, Exact.isFinite_nearest Nat.one_pos (by simp) hposq, not_lt]
    have hlimit : ((2 : ℚ) ^ 53 - 1 / 2) * 2 ^ Exact.maxExponent = (((2 ^ 54 - 1) * 2 ^ 970 : Nat) : ℚ) := by
      rw [Exact.maxExponent, show (971 : Int) = 1 + (970 : Nat) by norm_num, zpow_two_add, zpow_natCast,
        Nat.cast_mul, Nat.cast_pow, Nat.cast_ofNat]
      generalize (2 : ℚ) ^ 970 = unit
      norm_num
      ring
    rw [hlimit]
    exact Nat.cast_le

end SketchTurtle
