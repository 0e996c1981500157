/-
How near a simplified polyline stays to the original one, in exact arithmetic.

The tolerance is asked of the vertices that are dropped. Where no rounding
interferes it holds for all that lies between them too: a vertex deviates by its
distance from some point of the segment that takes its place
(`Point.exists_deviationSq_eq`), and as one goes along an edge of the polyline at a
steady pace from one such vertex to the next, and along the segment at a steady pace
from the one point to the other, the squared distance stays below the line between
its two values (`Point.distanceSq_along_le`). So every point of every edge is within
the tolerance (`edge_within`).

All this holds over any ordered field, in which distances are compared by their
squares.
-/
import SketchTurtle.Proofs.Geometry.Tolerance
import Mathlib.Algebra.Order.Field.Basic
import Mathlib.Algebra.Order.Ring.Rat
import Mathlib.Tactic.Linarith
import Mathlib.Tactic.NormNum

namespace SketchTurtle

namespace Point

variable {K : Type} [Field K] [LinearOrder K] [IsStrictOrderedRing K]

/-! ## Points of a segment -/

theorem clamp_bounds (t : K) : 0 ≤ clamp t ∧ clamp t ≤ 1 := by
  have hcapped : (if t < 1 then t else 1) ≤ 1 := by
    split
    · next h => exact h.le
    · exact le_rfl
  rw [clamp]
  generalize (if t < 1 then t else 1) = capped at hcapped
  show 0 ≤ (if 0 < capped then capped else 0) ∧ (if 0 < capped then capped else 0) ≤ 1
  split
  · next h => exact ⟨h.le, hcapped⟩
  · exact ⟨le_rfl, zero_le_one⟩

omit [LinearOrder K] [IsStrictOrderedRing K] in
theorem along_zero (a b : Point K) : along a b 0 = a := by
  simp [along]

omit [LinearOrder K] [IsStrictOrderedRing K] in
theorem along_one (a b : Point K) : along a b 1 = b := by
  simp [along]

omit [LinearOrder K] [IsStrictOrderedRing K] in
theorem distanceSq_self (p : Point K) : distanceSq p p = 0 := by
  simp [distanceSq]

omit [LinearOrder K] [IsStrictOrderedRing K] in
theorem distanceSq_comm (p q : Point K) : distanceSq p q = distanceSq q p := by
  simp only [distanceSq]
  ring

/-- What a point deviates from a segment is its distance from a point there. -/
theorem exists_deviationSq_eq (p a b : Point K) :
    ∃ u, 0 ≤ u ∧ u ≤ 1 ∧ distanceSq (along a b u) p = deviationSq p a b := by
  unfold deviationSq
  split
  · exact ⟨0, le_rfl, zero_le_one, by rw [along_zero, distanceSq_comm]⟩
  · exact ⟨projection p a b, (clamp_bounds _).1, (clamp_bounds _).2, rfl⟩

/-! ## Going along two segments at once -/

theorem sq_between_le (x y : K) {s : K} (h0 : 0 ≤ s) (h1 : s ≤ 1) :
    ((1 - s) * x + s * y) * ((1 - s) * x + s * y) ≤ (1 - s) * (x * x) + s * (y * y) := by
  have hgap : (1 - s) * (x * x) + s * (y * y) - ((1 - s) * x + s * y) * ((1 - s) * x + s * y) =
      s * (1 - s) * ((x - y) * (x - y)) := by ring
  have hnonneg : 0 ≤ s * (1 - s) * ((x - y) * (x - y)) :=
    mul_nonneg (mul_nonneg h0 (sub_nonneg.2 h1)) (mul_self_nonneg _)
  linarith

/-- Between two points of a segment and two other points the squared distance lies
below the line between its values. -/
theorem distanceSq_along_le (a b c d : Point K) (u v : K) {s : K} (h0 : 0 ≤ s) (h1 : s ≤ 1) :
    distanceSq (along a b ((1 - s) * u + s * v)) (along c d s) ≤
      (1 - s) * distanceSq (along a b u) c + s * distanceSq (along a b v) d := by
  have hx := sq_between_le (c.x - (along a b u).x) (d.x - (along a b v).x) h0 h1
  have hy := sq_between_le (c.y - (along a b u).y) (d.y - (along a b v).y) h0 h1
  calc distanceSq (along a b ((1 - s) * u + s * v)) (along c d s)
      = ((1 - s) * (c.x - (along a b u).x) + s * (d.x - (along a b v).x)) *
            ((1 - s) * (c.x - (along a b u).x) + s * (d.x - (along a b v).x)) +
          ((1 - s) * (c.y - (along a b u).y) + s * (d.y - (along a b v).y)) *
            ((1 - s) * (c.y - (along a b u).y) + s * (d.y - (along a b v).y)) := by
        simp only [distanceSq, along]
        ring
    _ ≤ _ := add_le_add hx hy
    _ = (1 - s) * distanceSq (along a b u) c + s * distanceSq (along a b v) d := by
        simp only [distanceSq]
        ring

/-- If both ends of an edge are near a segment, so is the whole edge. -/
theorem exists_along_near {a b c d : Point K} {limit u v : K} (hu : 0 ≤ u ∧ u ≤ 1) (hv : 0 ≤ v ∧ v ≤ 1)
    (hc : distanceSq (along a b u) c ≤ limit) (hd : distanceSq (along a b v) d ≤ limit) {s : K} (h0 : 0 ≤ s)
    (h1 : s ≤ 1) : ∃ w, 0 ≤ w ∧ w ≤ 1 ∧ distanceSq (along a b w) (along c d s) ≤ limit := by
  have hs : 0 ≤ 1 - s := sub_nonneg.2 h1
  refine ⟨(1 - s) * u + s * v, add_nonneg (mul_nonneg hs hu.1) (mul_nonneg h0 hv.1), ?_, ?_⟩
  · calc (1 - s) * u + s * v ≤ (1 - s) * 1 + s * 1 :=
          add_le_add (mul_le_mul_of_nonneg_left hu.2 hs) (mul_le_mul_of_nonneg_left hv.2 h0)
      _ = 1 := by ring
  · calc distanceSq (along a b ((1 - s) * u + s * v)) (along c d s)
        ≤ (1 - s) * distanceSq (along a b u) c + s * distanceSq (along a b v) d :=
          distanceSq_along_le a b c d u v h0 h1
      _ ≤ (1 - s) * limit + s * limit :=
          add_le_add (mul_le_mul_of_nonneg_left hc hs) (mul_le_mul_of_nonneg_left hd h0)
      _ = limit := by ring

end Point

namespace Polyline

open Point

/-- The measure without a root: deviations are compared by their squares. -/
def squares (K : Type) [Add K] [Sub K] [Mul K] [Div K] [OfNat K 0] [OfNat K 1] [BEq K] [LT K] [DecidableLT K] :
    Measure (Point K) K := ⟨deviationSq, 0⟩

variable {K : Type} [Field K] [LinearOrder K] [IsStrictOrderedRing K]

omit [IsStrictOrderedRing K] in
theorem ordered_squares : (squares K).Ordered :=
  ⟨lt_irrefl, lt_trans, fun {_ _ c} _ hab => (lt_or_ge _ c).imp_right fun h => lt_of_le_of_lt h hab⟩

/-! ## Gaps -/

/-- Around an edge there are two neighbours among the positions of a list that has
one on either side. -/
theorem exists_gap {l : List Nat} {k : Nat} (hbefore : ∃ i ∈ l, i ≤ k) (hafter : ∃ j ∈ l, k < j) :
    ∃ i ∈ l, ∃ j ∈ l, i ≤ k ∧ k < j ∧ ∀ m ∈ l, ¬ (i < m ∧ m < j) := by
  obtain ⟨i₀, hi₀, hle₀⟩ := hbefore
  have hi := Nat.findGreatest_spec (P := (· ∈ l)) hle₀ hi₀
  obtain ⟨hj, hlt⟩ := Nat.find_spec hafter
  refine ⟨_, hi, _, hj, Nat.findGreatest_le k, hlt, fun m hm ⟨him, hmj⟩ => ?_⟩
  rcases Nat.lt_or_ge k m with h | h
  · exact Nat.find_min hafter hmj ⟨hm, h⟩
  · exact absurd (Nat.le_findGreatest h hm) (Nat.not_le.2 him)

omit [IsStrictOrderedRing K] in
theorem lt_length_of_mem_keptPositions {limit : K} {points : List (Point K)} {i : Nat}
    (h : i ∈ keptPositions (squares K) limit points) : i < points.length :=
  (Vector.getElem?_eq_some_iff.1 ((mem_keptPositions _ _ points i).1 h)).1

/-- In a gap every vertex is near the segment, its ends among them. -/
theorem exists_near_of_gap (points : List (Point K)) {limit : K} (hlimit : 0 ≤ limit) {i j k : Nat}
    (hi : i ∈ keptPositions (squares K) limit points) (hj : j ∈ keptPositions (squares K) limit points)
    (hgap : ∀ l ∈ keptPositions (squares K) limit points, ¬ (i < l ∧ l < j)) (hik : i ≤ k) (hkj : k ≤ j)
    (hn : j < points.length) :
    ∃ u, (0 ≤ u ∧ u ≤ 1) ∧ distanceSq (along points[i] points[j] u) points[k] ≤ limit := by
  rcases Nat.eq_or_lt_of_le hik with rfl | hik
  · refine ⟨0, ⟨le_rfl, zero_le_one⟩, ?_⟩
    rwa [along_zero, distanceSq_self]
  · rcases Nat.eq_or_lt_of_le hkj with rfl | hkj
    · refine ⟨1, ⟨zero_le_one, le_rfl⟩, ?_⟩
      rwa [along_one, distanceSq_self]
    · obtain ⟨u, h0, h1, hu⟩ := exists_deviationSq_eq points[k] points[i] points[j]
      obtain ⟨_, hnot⟩ := not_lt_of_gap ordered_squares (fun d => lt_of_le_of_lt hlimit) points hi hj hgap hik hkj
      exact ⟨u, ⟨h0, h1⟩, hu.trans_le (le_of_not_gt hnot)⟩

/-- **Every point of the original polyline is within the tolerance** from the segment
that takes the place of its edge: the one between the nearest vertices that are kept
on either side. -/
theorem edge_within (points : List (Point ℚ)) (t : ℚ) {k : Nat} (hk : k + 1 < points.length) :
    simplify (squares ℚ) (t ^ 2) points =
        (keptPositions (squares ℚ) (t ^ 2) points).filterMap (points[·]?) ∧
      (∃ i ∈ keptPositions (squares ℚ) (t ^ 2) points, ∃ j ∈ keptPositions (squares ℚ) (t ^ 2) points,
        i ≤ k ∧ k < j ∧ ∀ l ∈ keptPositions (squares ℚ) (t ^ 2) points, ¬ (i < l ∧ l < j)) ∧
      ∀ i ∈ keptPositions (squares ℚ) (t ^ 2) points, ∀ j ∈ keptPositions (squares ℚ) (t ^ 2) points,
        (∀ l ∈ keptPositions (squares ℚ) (t ^ 2) points, ¬ (i < l ∧ l < j)) → ∀ (_ : i ≤ k) (_ : k < j),
          ∃ _ : j < points.length, ∀ s : ℚ, 0 ≤ s → s ≤ 1 → ∃ u : ℚ, 0 ≤ u ∧ u ≤ 1 ∧
            distanceSq (along points[i] points[j] u) (along points[k] points[k + 1] s) ≤ t ^ 2 := by
  have hends := ends_mem_keptPositions (squares ℚ) (t ^ 2) (List.length_pos_iff.1 (Nat.zero_lt_of_lt hk))
  refine ⟨simplify_eq_filterMap _ _ _, ?_, fun i hi j hj hgap hik hkj => ?_⟩
  · exact exists_gap ⟨0, hends.1, Nat.zero_le k⟩ ⟨points.length - 1, hends.2, by omega⟩
  · have hn := lt_length_of_mem_keptPositions hj
    refine ⟨hn, fun s h0 h1 => ?_⟩
    obtain ⟨u, hu, hc⟩ := exists_near_of_gap points (sq_nonneg t) hi hj hgap hik (Nat.le_of_lt hkj) hn
    obtain ⟨v, hv, hd⟩ := exists_near_of_gap points (sq_nonneg t) hi hj hgap (Nat.le_succ_of_le hik) hkj hn
    exact exists_along_near hu hv hc hd h0 h1

/-- A thin triangle, drawn back to where it began. -/
def loop : List (Point ℚ) := [⟨0, 0⟩, ⟨3, 0⟩, ⟨3, 1⟩, ⟨0, 0⟩]

theorem edge_within_loop :
    0 + 1 < loop.length ∧ keptPositions (squares ℚ) (2 ^ 2) loop = [0, 2, 3] ∧
      ∃ u : ℚ, 0 ≤ u ∧ u ≤ 1 ∧ distanceSq (along ⟨0, 0⟩ ⟨3, 1⟩ u) (along ⟨0, 0⟩ ⟨3, 0⟩ (1 / 2)) ≤ 2 ^ 2 := by
  have hk : 0 + 1 < loop.length := by decide
  have hkept : keptPositions (squares ℚ) (2 ^ 2) loop = [0, 2, 3] := by decide +kernel
  have hwithin := (edge_within loop 2 hk).2.2
  rw [hkept] at hwithin
  obtain ⟨_, hnear⟩ := hwithin 0 (by simp) 2 (by simp) (by simp) (by omega) (by omega)
  exact ⟨hk, hkept, hnear (1 / 2) (by norm_num) (by norm_num)⟩

end Polyline

end SketchTurtle
