/-
Rounding coordinates again.

What is read from the text of a coordinate is the double closest to its number of
hundredths, `ofHundredths`, and a greater double has no smaller number. So reading keeps the
order of coordinates.

That double is rounded to itself (`toHundredths_eq_self`), though it need not be a number of
hundredths: where doubles lie close together it is rounded to the hundredths that it came from,
and where they are far apart to hundredths that lie nearer to it than any other double. So
the text of what is read is the same text.
-/
import SketchTurtle.Proofs.Turtle.Hundredths

namespace SketchTurtle.Turtle

open Exact Shortest

/-! ## Rounding twice -/

theorem isNearestWhole_self (n : ℤ) : IsNearestWhole n n := ⟨by norm_num, by norm_num⟩

theorem IsNearestWhole.of_lt {x : ℚ} {n : ℤ} (h : |x - n| < 1 / 2) : IsNearestWhole x n :=
  ⟨h.le, fun heq => absurd heq h.ne⟩

section Interval

variable {m : Nat} {e : Int}

theorem roundedHundredths_eq {n : Nat} (h : IsNearestWhole (100 * (m * 2 ^ e)) n) : roundedHundredths m e = n := by
  exact_mod_cast (isNearestWhole_roundedHundredths m e).unique h

theorem roundedHundredths_of_whole (h : (ratio m e).1 % (ratio m e).2 = 0) :
    (roundedHundredths m e / 100 : ℚ) = m * 2 ^ e := by
  rw [← ratio_div_eq h, roundedHundredths_eq (n := 100 * ((ratio m e).1 / (ratio m e).2))]
  · push_cast
    ring
  · rw [← ratio_div_eq h]
    exact_mod_cast isNearestWhole_self _

/-- A full mantissa whose last bits are zeros is a whole number, if the unit is not too small. -/
theorem ratio_mod_of_full (he : -52 ≤ e) : (ratio (2 ^ 52) e).1 % (ratio (2 ^ 52) e).2 = 0 := by
  simp only [ratio, Nat.pow_eq]
  exact Nat.mod_eq_zero_of_dvd (Dvd.dvd.mul_right (Nat.pow_dvd_pow 2 (by omega)) _)

end Interval

section Rounded

variable {m : Nat} {e : Int} (h : Normal m e) (hm : 0 < m) {n : Nat} (hn : (interval m e).Contains (n / 100))
include hm hn

/-- Where doubles lie close together, the number of hundredths is found again. -/
theorem roundedHundredths_of_fine (he : e ≤ -7) : roundedHundredths m e = n := by
  refine roundedHundredths_eq (.of_lt ?_)
  -- The unit 2 ^ (-7) is the greatest one below a hundredth, and a double is off by half its unit.
  have hnear := (abs_sub_le_of_contains hm hn).1
  have hunit : (2 : ℚ) ^ e ≤ 2 ^ (-7 : Int) := zpow_le_zpow_right₀ (by norm_num) he
  have hscale : 100 * (m * 2 ^ e) - ((n : ℤ) : ℚ) = 100 * (m * 2 ^ e - n / 100) := by
    push_cast
    ring
  rw [hscale, abs_mul]
  norm_num at hunit ⊢
  linarith

omit hn in
/-- Where they are far apart, a double is rounded to hundredths that it is closest to. -/
theorem contains_of_coarse (he : -7 < e) : (interval m e).Contains (roundedHundredths m e / 100) := by
  by_cases hwhole : (ratio m e).1 % (ratio m e).2 = 0
  · rw [roundedHundredths_of_whole hwhole]
    exact contains_middle hm e
  · have hunit : (2 : ℚ) ^ (-e) ≤ 64 :=
      (zpow_le_zpow_right₀ (n := 6) (by norm_num) (by omega)).trans_eq (by norm_num)
    obtain ⟨hlow, hhigh⟩ := abs_sub_roundedHundredths m e
    have hunits : (m * 2 ^ e * 2 ^ (-e) : ℚ) = m := by
      rw [mul_assoc, ← zpow_two_add, Int.add_right_neg, zpow_zero, mul_one]
    have hlow := mul_le_mul_of_nonneg_right hlow (zpow_pos_two (-e)).le
    have hhigh := mul_le_mul_of_nonneg_right hhigh (zpow_pos_two (-e)).le
    have hbelow : (m : ℚ) - 1 / 2 < roundedHundredths m e / 100 * 2 ^ (-e) := by linarith
    have habove : roundedHundredths m e / 100 * 2 ^ (-e) < (m : ℚ) + 1 / 2 := by linarith
    refine contains_of_bounds ⟨hbelow.le, habove.le⟩ (fun _ => ⟨hbelow, habove⟩) hm fun hfull _ => ?_
    rw [hfull] at hwhole
    exact absurd (ratio_mod_of_full (by omega)) hwhole

theorem contains_roundedHundredths : (interval m e).Contains (roundedHundredths m e / 100) := by
  rcases le_or_gt e (-7) with he | he
  · rwa [roundedHundredths_of_fine hm hn he]
  · exact contains_of_coarse hm he

include h

/-- **A double that stands for hundredths is rounded to itself.** -/
theorem toHundredths_eq_self (negative : Bool) : toHundredths (.finite negative m e) = .finite negative m e := by
  rw [toHundredths_eq]
  refine nearest_eq h hm (by decide) ?_ (contains_roundedHundredths hm hn)
  push_cast
  ring

end Rounded

/-! ## Reading -/

/-- The double nearest a number of hundredths. -/
def ofHundredths (n : ℤ) : Float := (nearest (n < 0) n.natAbs 100).toFloat

theorem ofHundredths_zero : ofHundredths 0 = 0 := by decide

theorem ofHundredths_signed {n : Nat} (hn : 0 < n) (negative : Bool) :
    ofHundredths (signed negative n) = (nearest negative n 100).toFloat := by
  rw [ofHundredths, decide_signed_lt_zero hn, natAbs_signed]

theorem parseFloat?_coordinate {x : Float} {v : ℚ} (hx : (Exact.ofFloat x).value? = some v) :
    ∃ n : ℤ, IsNearestWhole (100 * v) n ∧ parseFloat? (coordinate x) = some (ofHundredths n) ∧
      IsClosest (ofHundredths n) (n / 100) ∧ coordinate (ofHundredths n) = coordinate x := by
  obtain ⟨negative, m, e, heq, rfl⟩ := exists_finite_of_value? hx
  have hnearest := isNearestWhole_signed negative m e
  refine ⟨signed negative (roundedHundredths m e), hnearest, ?_⟩
  rcases Nat.eq_zero_or_pos (roundedHundredths m e) with h0 | hpos
  · have hzero : signed negative 0 = 0 := by cases negative <;> rfl
    rw [coordinate_of_eq_zero heq h0, h0, hzero, ofHundredths_zero, Int.cast_zero, zero_div]
    exact ⟨by decide, isClosest_zero, by decide +kernel⟩
  · have hnormal := isNormal_ofFloat x
    rw [heq] at hnormal
    obtain ⟨m', e', h', hm', hrounded, hcontains⟩ := exists_toHundredths hnormal hpos negative
    have htext : coordinate x = String.ofList (literalOf (.finite negative m' e')) := by rw [coordinate, heq, hrounded]
    rw [toHundredths_eq] at hrounded
    rw [ofHundredths_signed hpos, hrounded, htext, cast_signed]
    refine ⟨parseFloat?_literalOf h' hm' negative, ?_, ?_⟩
    · convert isClosest_of_contains hm' hcontains h' negative using 1
      cases negative <;> simp [withSign, neg_div]
    · rw [coordinate, ofFloat_toFloat h', toHundredths_eq_self h' hm' hcontains]

theorem ofHundredths_le {v w : ℚ} {n k : ℤ} (hn : IsNearestWhole (100 * v) n) (hk : IsNearestWhole (100 * w) k)
    (hclosest : IsClosest (ofHundredths n) (n / 100)) (hclosest' : IsClosest (ofHundredths k) (k / 100))
    (h : v ≤ w) : ofHundredths n ≤ ofHundredths k := by
  rcases (hn.le hk (by linarith)).eq_or_lt with rfl | hlt
  · obtain ⟨_, hvalue, -⟩ := hclosest
    exact (le_iff_of_value? hvalue hvalue).2 le_rfl
  · have hlt : (n : ℚ) < k := by exact_mod_cast hlt
    exact hclosest.le_of_lt hclosest' (by linarith)

/-- **Rounding coordinates is a monotone projection**: what is read from them keeps the order
of doubles, and has the text that it was read from. -/
theorem coordinate_monotone_projection {x y : Float} (hx : (Exact.ofFloat x).isFinite = true)
    (hy : (Exact.ofFloat y).isFinite = true) :
    ∃ a b, parseFloat? (coordinate x) = some a ∧ parseFloat? (coordinate y) = some b ∧
      (x ≤ y → a ≤ b) ∧ coordinate a = coordinate x := by
  obtain ⟨v, hv⟩ := exists_value? hx
  obtain ⟨w, hw⟩ := exists_value? hy
  obtain ⟨n, hn, hread, hclosest, htext⟩ := parseFloat?_coordinate hv
  obtain ⟨k, hk, hread', hclosest', -⟩ := parseFloat?_coordinate hw
  refine ⟨_, _, hread, hread', fun hle => ?_, htext⟩
  exact ofHundredths_le hn hk hclosest hclosest' ((le_iff_of_value? hv hw).1 hle)

/-- An eighth is moved to thirteen hundredths and stays there, below a double of which the
neighbours are an eighth away. -/
theorem coordinate_monotone_projection_eighth :
    (Exact.ofFloat 0.125).isFinite = true ∧ (Exact.ofFloat 562949953421312.125).isFinite = true ∧
      coordinate 0.125 = "0.13" ∧ coordinate 562949953421312.125 = "562949953421312.1" ∧
      ∃ a b, parseFloat? "0.13" = some a ∧ parseFloat? "562949953421312.1" = some b ∧
        a ≤ b ∧ coordinate a = "0.13" := by
  have hsmall : (Exact.ofFloat 0.125).isFinite = true := by decide +kernel
  have hlarge : (Exact.ofFloat 562949953421312.125).isFinite = true := by decide +kernel
  have htext : coordinate 0.125 = "0.13" := by decide +kernel
  have htext' : coordinate 562949953421312.125 = "562949953421312.1" := by decide +kernel
  obtain ⟨a, b, hread, hread', hle, hsame⟩ := coordinate_monotone_projection hsmall hlarge
  rw [htext] at hread hsame
  rw [htext'] at hread'
  exact ⟨hsmall, hlarge, htext, htext', a, b, hread, hread', hle (by decide +kernel), hsame⟩

end SketchTurtle.Turtle
