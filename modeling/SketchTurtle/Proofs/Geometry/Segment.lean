/-
In exact arithmetic what a point deviates from a segment is the least distance to
any point there (`deviationSq_isLeast`).

Along the line of a segment the squared distance grows with the square of the way
from the foot of the perpendicular (`distanceSq_along_eq`). So it is least at the
parameter of the segment that is nearest to the foot's, which is that parameter
kept between zero and one (`sq_clamp_sub_le`). A segment whose ends are the same has
only one point.

Like `Proofs.Geometry.Nearness`, from which the other half comes, this holds over any
ordered field.
-/
import SketchTurtle.Proofs.Geometry.Nearness
import Mathlib.Order.Bounds.Basic

namespace SketchTurtle.Point

variable {K : Type} [Field K] [LinearOrder K] [IsStrictOrderedRing K]

/-! ## The parameter kept within the segment -/

theorem clamp_of_nonpos {t : K} (h : t ≤ 0) : clamp t = 0 := by
  have hlt : t < 1 := lt_of_le_of_lt h zero_lt_one
  simp [clamp, hlt, not_lt.2 h]

theorem clamp_of_one_le {t : K} (h : 1 ≤ t) : clamp t = 1 := by
  simp [clamp, not_lt.2 h]

omit [IsStrictOrderedRing K] in
theorem clamp_of_mem {t : K} (h0 : 0 ≤ t) (h1 : t ≤ 1) : clamp t = t := by
  have hcapped : (if t < 1 then t else 1) = t := by
    by_cases h : t < 1
    · rw [if_pos h]
    · rw [if_neg h]
      exact le_antisymm (not_lt.1 h) h1
  simp only [clamp, hcapped]
  by_cases h : 0 < t
  · rw [if_pos h]
  · rw [if_neg h]
    exact le_antisymm h0 (not_lt.1 h)

/-- No parameter of the segment is nearer to the one that was to be kept within. -/
theorem sq_clamp_sub_le (t : K) {s : K} (h0 : 0 ≤ s) (h1 : s ≤ 1) : (clamp t - t) ^ 2 ≤ (s - t) ^ 2 := by
  by_cases hbefore : t ≤ 0
  · -- before the beginning, which is the nearest then
    have hnonneg : 0 ≤ 0 - t := by linarith
    have hle : 0 - t ≤ s - t := by linarith
    rw [clamp_of_nonpos hbefore]
    exact pow_le_pow_left₀ hnonneg hle 2
  · by_cases hafter : 1 ≤ t
    · -- beyond the end
      have hnonneg : 0 ≤ t - 1 := by linarith
      have hle : t - 1 ≤ t - s := by linarith
      rw [clamp_of_one_le hafter, ← neg_sq (1 - t), ← neg_sq (s - t), neg_sub, neg_sub]
      exact pow_le_pow_left₀ hnonneg hle 2
    · rw [clamp_of_mem (le_of_not_ge hbefore) (le_of_not_ge hafter), sub_self, zero_pow two_ne_zero]
      exact sq_nonneg (s - t)

/-! ## The foot of the perpendicular -/

/-- The product of the ways from `a` to `p` and from `a` to `b`. -/
def dot (p a b : Point K) : K := (p.x - a.x) * (b.x - a.x) + (p.y - a.y) * (b.y - a.y)

/-- The parameter of the foot of the perpendicular from `p` to the line through `a` and `b`. -/
def foot (p a b : Point K) : K := dot p a b / distanceSq a b

omit [IsStrictOrderedRing K] in
theorem projection_eq_clamp (p a b : Point K) : projection p a b = clamp (foot p a b) := rfl

omit [LinearOrder K] [IsStrictOrderedRing K] in
theorem distanceSq_along (p a b : Point K) (s : K) :
    distanceSq (along a b s) p = distanceSq a p - 2 * s * dot p a b + s ^ 2 * distanceSq a b := by
  simp only [distanceSq, along, dot]
  ring

omit [LinearOrder K] [IsStrictOrderedRing K] in
/-- Along a line the squared distance is that of the foot and, in units of the
segment, the square of the way from there. -/
theorem distanceSq_along_eq {a b : Point K} (h : distanceSq a b ≠ 0) (p : Point K) (s : K) :
    distanceSq (along a b s) p =
      distanceSq (along a b (foot p a b)) p + (s - foot p a b) ^ 2 * distanceSq a b := by
  have hdot : dot p a b = foot p a b * distanceSq a b := (div_mul_cancel₀ _ h).symm
  rw [distanceSq_along, distanceSq_along, hdot]
  ring

/-! ## The least distance -/

theorem distanceSq_nonneg (p q : Point K) : 0 ≤ distanceSq p q :=
  add_nonneg (mul_self_nonneg (q.x - p.x)) (mul_self_nonneg (q.y - p.y))

theorem eq_of_distanceSq_eq_zero {p q : Point K} (h : distanceSq p q = 0) : p = q := by
  obtain ⟨hx, hy⟩ := mul_self_add_mul_self_eq_zero.1 h
  obtain ⟨px, py⟩ := p
  obtain ⟨qx, qy⟩ := q
  simp only [sub_eq_zero] at hx hy
  rw [hx, hy]

omit [LinearOrder K] [IsStrictOrderedRing K] in
theorem along_self (a : Point K) (s : K) : along a a s = a := by
  simp [along]

/-- A point deviates from a segment by no more than its distance from any point there. -/
theorem deviationSq_le (p a b : Point K) {s : K} (h0 : 0 ≤ s) (h1 : s ≤ 1) :
    deviationSq p a b ≤ distanceSq (along a b s) p := by
  unfold deviationSq
  split
  · next h =>
    obtain rfl := eq_of_distanceSq_eq_zero (beq_iff_eq.1 h)
    rw [along_self, distanceSq_comm]
  · next h =>
    have hne : distanceSq a b ≠ 0 := fun h0 => h (beq_iff_eq.2 h0)
    calc distanceSq (along a b (projection p a b)) p
        = distanceSq (along a b (foot p a b)) p + (projection p a b - foot p a b) ^ 2 * distanceSq a b :=
          distanceSq_along_eq hne p _
      _ ≤ distanceSq (along a b (foot p a b)) p + (s - foot p a b) ^ 2 * distanceSq a b := by
          rw [projection_eq_clamp]
          have hnear := sq_clamp_sub_le (foot p a b) h0 h1
          exact add_le_add_right (mul_le_mul_of_nonneg_right hnear (distanceSq_nonneg a b)) _
      _ = distanceSq (along a b s) p := (distanceSq_along_eq hne p s).symm

/-- **What a point deviates from a segment is the least of its distances from the
points there**, all squared. The ends may be the same. -/
theorem deviationSq_isLeast (p a b : Point ℚ) :
    IsLeast {d | ∃ s : ℚ, 0 ≤ s ∧ s ≤ 1 ∧ distanceSq (along a b s) p = d} (deviationSq p a b) := by
  refine ⟨exists_deviationSq_eq p a b, ?_⟩
  intro d hd
  obtain ⟨s, h0, h1, hs⟩ := hd
  rw [← hs]
  exact deviationSq_le p a b h0 h1

/-- Beyond the end of a segment it is the distance from the end. -/
example : deviationSq (⟨3, 1⟩ : Point ℚ) ⟨0, 0⟩ ⟨1, 0⟩ = 5 := by decide +kernel

end SketchTurtle.Point
