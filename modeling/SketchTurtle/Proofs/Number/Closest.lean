/-
The double that a quotient is rounded to is the closest one.

`Interval.Contains` says which reals a double stands for. The double is the
closest of all to each of them (`closest_of_contains`), and a quotient lies in the
interval of the double that it is rounded to (`exists_nearest`). So of all doubles
rounding finds the closest, and of two equally close ones the one with the even
mantissa (`isClosest_nearest`). To numbers in order the closest doubles are in order as
well (`IsClosest.le_of_lt`).
-/
import SketchTurtle.Proofs.Number.Nearest
import SketchTurtle.Proofs.Number.Word
import Mathlib.Algebra.Order.Group.Unbundled.Abs
import Mathlib.Tactic.LinearCombination

namespace SketchTurtle

/-! ## Rounding a quotient -/

theorem roundHalfEven_bounds_nat (num : Nat) {den : Nat} (hden : 0 < den) :
    (2 * (roundHalfEven num den * den) ≤ 2 * num + den ∧ 2 * num ≤ 2 * (roundHalfEven num den * den) + den) ∧
      (roundHalfEven num den % 2 = 1 →
        2 * (roundHalfEven num den * den) < 2 * num + den ∧ 2 * num < 2 * (roundHalfEven num den * den) + den) := by
  have hsplit : num / den * den + num % den = num := Nat.div_add_mod' num den
  have hrest : num % den < den := Nat.mod_lt num hden
  simp only [roundHalfEven]
  generalize num / den = q at *
  generalize num % den = r at *
  have hnext : (q + 1) * den = q * den + den := by ring
  split
  · omega
  · split
    · rcases Nat.mod_two_eq_zero_or_one q with heven | hodd
      · rw [heven, Nat.add_zero]
        omega
      · rw [hodd]
        omega
    · omega

/-- A quotient is at most a half away from what it is rounded to, and nearer than that
if the whole number is odd. -/
theorem roundHalfEven_bounds {num den : Nat} {x : ℚ} (hden : 0 < den) (hx : (num : ℚ) = x * den) :
    ((roundHalfEven num den : ℚ) - 1 / 2 ≤ x ∧ x ≤ roundHalfEven num den + 1 / 2) ∧
      (roundHalfEven num den % 2 = 1 →
        (roundHalfEven num den : ℚ) - 1 / 2 < x ∧ x < roundHalfEven num den + 1 / 2) := by
  have hdenq : (0 : ℚ) < den := by exact_mod_cast hden
  obtain ⟨⟨hlow, hhigh⟩, hodd⟩ := roundHalfEven_bounds_nat num hden
  generalize roundHalfEven num den = m at *
  have hlow : (2 * (m * den) : ℚ) ≤ 2 * num + den := by exact_mod_cast hlow
  have hhigh : (2 * num : ℚ) ≤ 2 * (m * den) + den := by exact_mod_cast hhigh
  rw [hx] at hlow hhigh
  refine ⟨⟨?_, ?_⟩, fun h => ?_⟩
  · refine le_of_mul_le_mul_right ?_ hdenq
    linarith
  · refine le_of_mul_le_mul_right ?_ hdenq
    linarith
  · obtain ⟨hlow', hhigh'⟩ := hodd h
    have hlow' : (2 * (m * den) : ℚ) < 2 * num + den := by exact_mod_cast hlow'
    have hhigh' : (2 * num : ℚ) < 2 * (m * den) + den := by exact_mod_cast hhigh'
    rw [hx] at hlow' hhigh'
    refine ⟨lt_of_mul_lt_mul_right ?_ hdenq.le, lt_of_mul_lt_mul_right ?_ hdenq.le⟩
    · linarith
    · linarith

namespace Exact

open Shortest

/-! ## Numbers denoted -/

/-- The number with its sign. -/
def withSign (negative : Bool) (x : ℚ) : ℚ := if negative then -x else x

/-- The number denoted, if one is. -/
def value? : Exact → Option ℚ
  | .finite negative m e => some (withSign negative (m * 2 ^ e))
  | _ => none

/-- A finite value whose mantissa is even. -/
def HasEvenMantissa : Exact → Prop
  | .finite _ m _ => m % 2 = 0
  | _ => False

/-- The double is the closest of all to a number. If another one is as close, its
mantissa is even. -/
def IsClosest (y : Float) (x : ℚ) : Prop :=
  ∃ v, (ofFloat y).value? = some v ∧ ∀ (z : Float) (w : ℚ), (ofFloat z).value? = some w →
    |v - x| ≤ |w - x| ∧ (|v - x| = |w - x| → w = v ∨ (ofFloat y).HasEvenMantissa)

theorem abs_withSign_sub (negative : Bool) (x y : ℚ) :
    |withSign negative x - withSign negative y| = |x - y| := by
  cases negative with
  | true => rw [withSign, withSign, if_pos rfl, if_pos rfl, neg_sub_neg, abs_sub_comm]
  | false => rfl

theorem withSign_xor (s t : Bool) (x : ℚ) : withSign s (withSign (s ^^ t) x) = withSign t x := by
  cases s <;> cases t <;> simp [withSign]

theorem exists_finite_of_value? {x : Exact} {v : ℚ} (h : x.value? = some v) :
    ∃ negative m e, x = .finite negative m e ∧ v = withSign negative (m * 2 ^ e) := by
  cases x with
  | nan => cases h
  | infinite negative => cases h
  | finite negative m e => exact ⟨negative, m, e, rfl, (Option.some.inj h).symm⟩

theorem exists_value? {x : Exact} (h : x.isFinite = true) : ∃ v, x.value? = some v := by
  cases x with
  | nan => cases h
  | infinite negative => cases h
  | finite negative m e => exact ⟨_, rfl⟩

/-! ## The closest double -/

theorem isClosest_self {y : Float} {v : ℚ} (hy : (ofFloat y).value? = some v) : IsClosest y v := by
  refine ⟨v, hy, fun z w _ => ?_⟩
  rw [sub_self, abs_zero]
  exact ⟨abs_nonneg _, fun h => .inl (sub_eq_zero.1 (abs_eq_zero.1 h.symm))⟩

/-- The doubles around a double: below the least mantissa of an exponent they lie twice
as close. -/
theorem Normal.gap {m n : Nat} {e f : Int} (hm : Normal m e) (hn : Normal n f) :
    (n * 2 ^ f : ℚ) ≤ (m - 1) * 2 ^ e ∨
      (m = 2 ^ 52 ∧ minExponent < e ∧ (n * 2 ^ f : ℚ) ≤ (m - 1 / 2) * 2 ^ e) ∨
      (n * 2 ^ f : ℚ) = m * 2 ^ e ∨ ((m : ℚ) + 1) * 2 ^ e ≤ n * 2 ^ f := by
  have hu := zpow_pos_two e
  rcases le_or_gt e f with hle | hlt
  · -- A greater unit: the other double is a multiple of this one's unit.
    obtain ⟨k, rfl⟩ : ∃ k : Nat, f = e + k := ⟨(f - e).toNat, by omega⟩
    have hmultiple : (n * 2 ^ (e + (k : Int)) : ℚ) = (n * 2 ^ k : Nat) * 2 ^ e := by
      rw [zpow_two_add, zpow_natCast]
      push_cast
      ring
    rw [hmultiple]
    rcases Nat.lt_trichotomy (n * 2 ^ k) m with h | h | h
    · have h : ((n * 2 ^ k : Nat) : ℚ) + 1 ≤ m := by exact_mod_cast h
      exact .inl (mul_le_mul_of_nonneg_right (by linarith) hu.le)
    · exact .inr (.inr (.inl (by rw [h])))
    · have h : (m : ℚ) + 1 ≤ (n * 2 ^ k : Nat) := by exact_mod_cast h
      exact .inr (.inr (.inr (mul_le_mul_of_nonneg_right h hu.le)))
  · have hmin := hn.min_le
    have hfull : 2 ^ 52 ≤ m := hm.full.resolve_right (by omega)
    have hhalf : (n * 2 ^ f : ℚ) ≤ (2 ^ 52 - 1 / 2) * 2 ^ e := by
      have hn : (n : ℚ) + 1 ≤ 2 ^ 53 := by exact_mod_cast hn.lt
      have hunit : (2 : ℚ) ^ f ≤ 2 ^ (e - 1) := zpow_le_zpow_right₀ (by norm_num) (by omega)
      have hsplit : (2 : ℚ) ^ e = 2 * 2 ^ (e - 1) := by
        rw [← zpow_one_add₀ (by norm_num)]
        congr 1
        omega
      calc (n * 2 ^ f : ℚ) ≤ (2 ^ 53 - 1) * 2 ^ (e - 1) :=
            mul_le_mul (by linarith) hunit (zpow_pos_two f).le (by norm_num)
        _ = (2 ^ 52 - 1 / 2) * 2 ^ e := by rw [hsplit]; ring
    rcases Nat.eq_or_lt_of_le hfull with rfl | hlt'
    · exact .inr (.inl ⟨rfl, by omega, by exact_mod_cast hhalf⟩)
    · have hlt' : (2 ^ 52 : ℚ) + 1 ≤ m := by exact_mod_cast hlt'
      exact .inl (hhalf.trans (mul_le_mul_of_nonneg_right (by linarith) hu.le))

section Closest

variable {m : Nat} {e : Int} {x : ℚ} (hm : 0 < m) (hx : (interval m e).Contains x)
include hm hx

theorem abs_sub_le_of_contains :
    |m * 2 ^ e - x| ≤ 2 ^ e / 2 ∧ (m % 2 = 1 → |m * 2 ^ e - x| < 2 ^ e / 2) := by
  obtain ⟨⟨hlow, hhigh⟩, hodd⟩ := bounds_of_contains hx hm
  have hu := zpow_pos_two e
  have hunits := mul_zpow_neg_mul x e
  have hlow := mul_le_mul_of_nonneg_right hlow hu.le
  have hhigh := mul_le_mul_of_nonneg_right hhigh hu.le
  rw [hunits] at hlow hhigh
  refine ⟨abs_le.2 ⟨by linarith, by linarith⟩, fun h => ?_⟩
  have hlow := mul_lt_mul_of_pos_right (hodd h).1 hu
  have hhigh := mul_lt_mul_of_pos_right (hodd h).2 hu
  rw [hunits] at hlow hhigh
  exact abs_lt.2 ⟨by linarith, by linarith⟩

/-- What is a unit away from the double is no closer. -/
theorem closest_of_far {w : ℚ} (hw : w ≤ (m - 1) * 2 ^ e ∨ (m + 1) * 2 ^ e ≤ w) :
    |m * 2 ^ e - x| ≤ |w - x| ∧ (|m * 2 ^ e - x| = |w - x| → m % 2 = 0) := by
  obtain ⟨hnear, hodd⟩ := abs_sub_le_of_contains hm hx
  obtain ⟨hlow, hhigh⟩ := abs_le.1 hnear
  have hfar : 2 ^ e / 2 ≤ |w - x| := by
    rcases hw with hw | hw
    · rw [abs_sub_comm]
      exact le_trans (by linarith) (le_abs_self _)
    · exact le_trans (by linarith) (le_abs_self _)
  refine ⟨hnear.trans hfar, fun heq => ?_⟩
  by_contra hne
  have := hodd (by omega)
  linarith

omit hm in
/-- Below the least mantissa the next double is half a unit away. -/
theorem closest_of_least {w : ℚ} (hleast : m = 2 ^ 52) (he : minExponent < e)
    (hw : w ≤ (m - 1 / 2) * 2 ^ e) : |m * 2 ^ e - x| ≤ |w - x| := by
  have hu := zpow_pos_two e
  have hlow := mul_le_mul_of_nonneg_right (low_of_contains hx hleast he) hu.le
  rw [mul_zpow_neg_mul] at hlow
  rw [abs_sub_comm w]
  refine le_trans ?_ (le_abs_self _)
  exact abs_le.2 ⟨by linarith, by linarith⟩

/-- **A double is the closest one to every real in its interval.** -/
theorem closest_of_contains (h : Normal m e) {n : Nat} {f : Int} (hn : Normal n f) (negative : Bool) :
    |m * 2 ^ e - x| ≤ |withSign negative (n * 2 ^ f) - x| ∧
      (|m * 2 ^ e - x| = |withSign negative (n * 2 ^ f) - x| →
        withSign negative (n * 2 ^ f) = m * 2 ^ e ∨ m % 2 = 0) := by
  have hu := zpow_pos_two e
  have hm' : (1 : ℚ) ≤ m := by exact_mod_cast hm
  cases negative with
  | true =>
    -- What is not positive lies a unit below.
    have hbelow : withSign true (n * 2 ^ f) ≤ (m - 1) * 2 ^ e := by
      have hpos : (0 : ℚ) ≤ n * 2 ^ f := mul_nonneg n.cast_nonneg (zpow_pos_two f).le
      have := mul_nonneg (sub_nonneg.2 hm') hu.le
      rw [withSign, if_pos rfl]
      linarith
    obtain ⟨hle, htie⟩ := closest_of_far hm hx (.inl hbelow)
    exact ⟨hle, fun heq => .inr (htie heq)⟩
  | false =>
    show |m * 2 ^ e - x| ≤ |n * 2 ^ f - x| ∧
      (|m * 2 ^ e - x| = |n * 2 ^ f - x| → (n * 2 ^ f : ℚ) = m * 2 ^ e ∨ m % 2 = 0)
    rcases h.gap hn with hfar | ⟨hleast, he, hlow⟩ | hsame | hfar
    · obtain ⟨hle, htie⟩ := closest_of_far hm hx (.inl hfar)
      exact ⟨hle, fun heq => .inr (htie heq)⟩
    · exact ⟨closest_of_least hx hleast he hlow, fun _ => .inr (by omega)⟩
    · exact ⟨by rw [hsame], fun _ => .inl hsame⟩
    · obtain ⟨hle, htie⟩ := closest_of_far hm hx (.inr hfar)
      exact ⟨hle, fun heq => .inr (htie heq)⟩

theorem isClosest_of_contains (h : Normal m e) (negative : Bool) :
    IsClosest (finite negative m e).toFloat (withSign negative x) := by
  have hfloat := ofFloat_toFloat h negative
  refine ⟨_, congrArg value? hfloat, fun z w hz => ?_⟩
  have hnormal := isNormal_ofFloat z
  obtain ⟨s, n, f, hfinite, rfl⟩ := exists_finite_of_value? hz
  rw [hfinite] at hnormal
  obtain ⟨hle, htie⟩ := closest_of_contains hm hx h hnormal (negative ^^ s)
  rw [← withSign_xor negative s, abs_withSign_sub, abs_withSign_sub, hfloat]
  exact ⟨hle, fun heq => (htie heq).imp (congrArg _) id⟩

end Closest

/-! ## The order of doubles -/

theorem exists_scaled_of_value? {x : Exact} {v : ℚ} (hx : x.IsNormal) (h : x.value? = some v) :
    ∃ a : ℤ, x.scaled = some a ∧ v = a * 2 ^ minExponent := by
  obtain ⟨negative, m, e, rfl, rfl⟩ := exists_finite_of_value? h
  refine ⟨_, rfl, ?_⟩
  have hunits : (m * 2 ^ e : ℚ) = magnitude m e * 2 ^ minExponent := by
    have hmin := hx.min_le
    obtain ⟨k, rfl⟩ : ∃ k : Nat, e = minExponent + k := ⟨(e - minExponent).toNat, by omega⟩
    rw [magnitude, zpow_two_add, add_sub_cancel_left, Int.toNat_natCast, zpow_natCast]
    push_cast
    ring
  rw [hunits]
  cases negative <;> simp [withSign, signed]

/-- Doubles are in the order of the numbers that they denote. -/
theorem le_iff_of_value? {x y : Float} {v w : ℚ} (hx : (ofFloat x).value? = some v)
    (hy : (ofFloat y).value? = some w) : x ≤ y ↔ v ≤ w := by
  obtain ⟨a, ha, rfl⟩ := exists_scaled_of_value? (isNormal_ofFloat x) hx
  obtain ⟨b, hb, rfl⟩ := exists_scaled_of_value? (isNormal_ofFloat y) hy
  rw [le_iff, mul_le_mul_iff_left₀ (zpow_pos_two minExponent), Int.cast_le]
  simp [ha, hb]

/-- Of two numbers in order the closest doubles are in order: doubles out of order would be
closer when exchanged. -/
theorem IsClosest.le_of_lt {y z : Float} {a b : ℚ} (hy : IsClosest y a) (hz : IsClosest z b) (hab : a < b) :
    y ≤ z := by
  obtain ⟨v, hv, hclosest⟩ := hy
  obtain ⟨w, hw, hclosest'⟩ := hz
  rw [le_iff_of_value? hv hw]
  by_contra hlt
  have hv_near : (v - a) ^ 2 ≤ (w - a) ^ 2 := sq_le_sq.2 (hclosest z w hw).1
  have hw_near : (w - b) ^ 2 ≤ (v - b) ^ 2 := sq_le_sq.2 (hclosest' y v hv).1
  have hproduct := mul_pos (sub_pos.2 (not_le.1 hlt)) (sub_pos.2 hab)
  linarith

/-! ## Rounding finds it -/

section Interval

variable {m : Nat} {e : Int} {x : ℚ}

theorem contains_of_bounds (hbounds : (m : ℚ) - 1 / 2 ≤ x * 2 ^ (-e) ∧ x * 2 ^ (-e) ≤ m + 1 / 2)
    (hodd : m % 2 = 1 → (m : ℚ) - 1 / 2 < x * 2 ^ (-e) ∧ x * 2 ^ (-e) < m + 1 / 2) (hm : 0 < m)
    (hleast : m = 2 ^ 52 → minExponent < e → (m : ℚ) - 1 / 4 ≤ x * 2 ^ (-e)) :
    (interval m e).Contains x := by
  have hq := zpow_pos_two (e - 2)
  have hunits : x = 4 * (x * 2 ^ (-e)) * 2 ^ (e - 2) := by
    have hfour : (4 : ℚ) * 2 ^ (-e) * 2 ^ (e - 2) = 1 := by
      rw [mul_assoc, ← zpow_two_add, show -e + (e - 2) = -2 by omega]
      norm_num
    linear_combination -x * hfour
  have hhigh : ((interval m e).high : ℚ) = 4 * m + 2 := by simp [interval]
  have hlow : ((interval m e).low : ℚ) ≤ 4 * (x * 2 ^ (-e)) := by
    simp only [interval, Nat.pow_eq]
    split
    · next h =>
      have := hleast h.1 h.2
      push_cast [show 1 ≤ 4 * m by omega]
      linarith
    · push_cast [show 2 ≤ 4 * m by omega]
      linarith
  rw [Interval.Contains, hhigh]
  split
  · rw [hunits]
    exact ⟨mul_le_mul_of_nonneg_right hlow hq.le, mul_le_mul_of_nonneg_right (by linarith) hq.le⟩
  · next hopen =>
    have hm1 : m % 2 = 1 := by
      simp only [interval, beq_iff_eq] at hopen
      omega
    obtain ⟨hlow', hhigh'⟩ := hodd hm1
    have hlow' : ((interval m e).low : ℚ) < 4 * (x * 2 ^ (-e)) := by
      simp only [interval, Nat.pow_eq]
      rw [if_neg (by omega)]
      push_cast [show 2 ≤ 4 * m by omega]
      linarith
    rw [hunits]
    exact ⟨mul_lt_mul_of_pos_right hlow' hq, mul_lt_mul_of_pos_right (by linarith) hq⟩

/-- What is nearer to a full unit than to the greatest mantissa below lies in the interval
of the least mantissa of the next unit. -/
theorem contains_of_full (hlow : (2 ^ 53 : ℚ) - 1 / 2 ≤ x * 2 ^ (-e)) (hhigh : x * 2 ^ (-e) < 2 ^ 53) :
    (interval (2 ^ 52) (e + 1)).Contains x := by
  have hhalf : x * 2 ^ (-(e + 1)) = x * 2 ^ (-e) / 2 := by
    rw [show -(e + 1) = -e + -1 by omega, zpow_two_add, zpow_neg_one]
    ring
  generalize x * 2 ^ (-e) = units at *
  refine contains_of_bounds ⟨?_, ?_⟩ (fun h => absurd h (by norm_num)) (by norm_num) fun _ _ => ?_
  all_goals
    rw [hhalf]
    push_cast
    linarith

theorem le_maxExponent_of_le (hhigh : x ≤ (2 ^ 53 - 1) * 2 ^ maxExponent) (hfull : 2 ^ 52 ≤ x * 2 ^ (-e)) :
    e ≤ maxExponent := by
  have hle : ¬ x < 2 ^ (e + (52 : Nat)) := fun h => absurd ((lt_zpow_iff 52).1 h) (not_lt.2 hfull)
  have hlt : x < 2 ^ (maxExponent + (53 : Nat)) := by
    rw [zpow_two_add, mul_comm]
    exact hhigh.trans_lt (mul_lt_mul_of_pos_right (by norm_num) (zpow_pos_two _))
  have := (zpow_lt_zpow_iff_right₀ (by norm_num)).1 ((not_lt.1 hle).trans_lt hlt)
  push_cast at this
  omega

theorem lt_maxExponent_of_le (hhigh : x ≤ (2 ^ 53 - 1) * 2 ^ maxExponent)
    (hlow : (2 ^ 53 : ℚ) - 1 / 2 ≤ x * 2 ^ (-e)) : e < maxExponent := by
  by_contra hge
  have hone : (2 : ℚ) ^ (maxExponent - e) ≤ 1 := zpow_le_one_of_nonpos₀ (by norm_num) (by omega)
  have hunits : x * 2 ^ (-e) ≤ (2 ^ 53 - 1) * 2 ^ (maxExponent - e) := by
    have := mul_le_mul_of_nonneg_right hhigh (zpow_pos_two (-e)).le
    rwa [mul_assoc, ← zpow_two_add, ← Int.sub_eq_add_neg] at this
  linarith

end Interval

section Quotient

variable {num den : Nat} {x : ℚ} (hden : 0 < den) (hx : (num : ℚ) = x * den)
include hden hx

/-- A positive quotient has a full mantissa in its unit, or the smallest unit. -/
theorem unitExponent_bounds (hpos : 0 < x) :
    minExponent ≤ unitExponent num den ∧ x * 2 ^ (-unitExponent num den) < 2 ^ 53 ∧
      (2 ^ 52 ≤ x * 2 ^ (-unitExponent num den) ∨ unitExponent num den = minExponent) := by
  obtain ⟨l, hl, hle, hlt⟩ := exists_leading hden hx hpos
  generalize unitExponent num den = e at *
  refine ⟨by omega, (lt_zpow_iff 53).1 ?_, ?_⟩
  · exact hlt.trans_le (zpow_le_zpow_right₀ (by norm_num) (by push_cast; omega))
  · rcases le_or_gt minExponent (l - 52) with h | h
    · refine .inl (not_lt.1 fun hsmall => ?_)
      have hsmall := (lt_zpow_iff 52).2 hsmall
      rw [show e + (52 : Nat) = l by push_cast; omega] at hsmall
      linarith
    · exact .inr (by omega)

/-- **A quotient lies in the interval of the double that it is rounded to**, if it is
not beyond the doubles. -/
theorem exists_nearest (hlow : 2 ^ minExponent ≤ x) (hhigh : x ≤ (2 ^ 53 - 1) * 2 ^ maxExponent)
    (negative : Bool) :
    ∃ m e, Normal m e ∧ 0 < m ∧ nearest negative num den = .finite negative m e ∧
      (interval m e).Contains x := by
  have hpos : 0 < x := (zpow_pos_two _).trans_le hlow
  have hnum : num ≠ 0 := by
    rintro rfl
    have := mul_pos hpos (by exact_mod_cast hden : (0 : ℚ) < den)
    simp [← hx] at this
  obtain ⟨hmin, hbelow, hfull⟩ := unitExponent_bounds hden hx hpos
  simp only [nearest, if_neg hnum]
  generalize unitExponent num den = e at *
  obtain ⟨⟨hle, hge⟩, hodd⟩ :=
    roundHalfEven_bounds (Nat.mul_pos hden (Nat.two_pow_pos e.toNat)) (scaled_quotient hx e)
  simp only [Nat.pow_eq] at *
  generalize roundHalfEven (num * 2 ^ (-e).toNat) (den * 2 ^ e.toNat) = m at *
  have hm : 0 < m := by
    have hone : 1 ≤ x * 2 ^ (-e) := by
      rcases hfull with h | rfl
      · linarith
      · have := mul_le_mul_of_nonneg_right hlow (zpow_pos_two (-minExponent)).le
        rwa [← zpow_two_add, Int.add_right_neg, zpow_zero] at this
    have : (0 : ℚ) < m := by linarith
    exact_mod_cast this
  have hm53 : m < 2 ^ 53 + 1 := by
    have : (m : ℚ) < 2 ^ 53 + 1 := by linarith
    exact_mod_cast this
  by_cases h53 : m = 2 ^ 53
  · -- The mantissa is rounded up into the next unit.
    have hlow : (2 ^ 53 : ℚ) - 1 / 2 ≤ x * 2 ^ (-e) := by
      rw [h53] at hle
      exact_mod_cast hle
    have hmax := lt_maxExponent_of_le hhigh hlow
    refine ⟨2 ^ 52, e + 1, ⟨by norm_num, by omega, by omega, .inl le_rfl⟩, by norm_num, ?_,
      contains_of_full hlow hbelow⟩
    rw [if_pos h53, bounded, if_neg (by omega)]
  · have hmax : e ≤ maxExponent := by
      rcases hfull with h | rfl
      · exact le_maxExponent_of_le hhigh h
      · decide
    have hmantissa : 2 ^ 52 ≤ m ∨ e = minExponent := by
      refine hfull.imp_left fun h => ?_
      have : (2 ^ 52 : ℚ) < m + 1 := by linarith
      have : 2 ^ 52 < m + 1 := by exact_mod_cast this
      omega
    refine ⟨m, e, ⟨by omega, hmin, hmax, hmantissa⟩, hm, ?_, ?_⟩
    · rw [if_neg h53, bounded, if_neg (by omega)]
    · refine contains_of_bounds ⟨hle, hge⟩ hodd hm fun hleast he => ?_
      have hfull := hfull.resolve_right (by omega)
      rw [hleast]
      push_cast
      linarith

/-- **Rounding a quotient finds the closest double.** -/
theorem isClosest_nearest (hlow : 2 ^ minExponent ≤ x) (hhigh : x ≤ (2 ^ 53 - 1) * 2 ^ maxExponent)
    (negative : Bool) : IsClosest (nearest negative num den).toFloat (withSign negative x) := by
  obtain ⟨m, e, hnormal, hm, heq, hcontains⟩ := exists_nearest hden hx hlow hhigh negative
  rw [heq]
  exact isClosest_of_contains hm hcontains hnormal negative

end Quotient

end Exact

end SketchTurtle
