/-
What the tolerance of simplification promises.

* `keptPositions_within`: between two vertices that are kept and have no kept one
  between them, no vertex lies beyond the tolerance from the segment that takes
  their place. What a span keeps is divided by its split vertex (`Span.keeps_iff`),
  so such a gap lies in one of its parts, down to a span that is not split
  (`Span.not_lt_of_gap`).
* `simplify_simplify`: to simplify twice is to simplify once with the larger
  tolerance, because what was dropped the first time is never the first of the
  farthest (`inner_inner`).
* `keptPositions_subset_of_le`: what a tolerance keeps every smaller one keeps too.
  Where a span is split does not depend on the tolerance, only whether it is, so the
  spans that are split with the larger one are split alike with the smaller one
  (`Span.kept_sublist`).
-/
import SketchTurtle.Proofs.Geometry.Farthest

namespace SketchTurtle.Polyline

variable {P D : Type} [LT D] [DecidableLT D] {m : Measure P D} {tolerance : D} {n : Nat}

/-! ## What a span keeps -/

/-- The positions that a span keeps, its ends among them. -/
def Span.Keeps (m : Measure P D) (tolerance : D) (points : Vector P n) (s : Span n) (i : Nat) : Prop :=
  i = s.first ∨ i = s.last ∨ i ∈ s.kept m tolerance points

namespace Span

variable {points : Vector P n} {i j : Nat}

theorem Keeps.first_le {s : Span n} (h : s.Keeps m tolerance points i) : s.first ≤ i := by
  have hlt := s.first_lt_last
  rcases h with rfl | rfl | h
  · omega
  · omega
  · exact Nat.le_of_lt (s.mem_kept m tolerance points i h).1

theorem Keeps.le_last {s : Span n} (h : s.Keeps m tolerance points i) : i ≤ s.last := by
  have hlt := s.first_lt_last
  rcases h with rfl | rfl | h
  · omega
  · omega
  · exact Nat.le_of_lt (s.mem_kept m tolerance points i h).2

theorem eq_ends_of_lt (s : Span n) (h : s.split? m tolerance points = none) (hi : s.Keeps m tolerance points i)
    (hj : s.Keeps m tolerance points j) (hlt : i < j) : i = s.first ∧ j = s.last := by
  have hfirst := hi.first_le
  have hlast := hj.le_last
  simp only [Keeps, kept_of_none h, List.not_mem_nil, or_false] at hi hj
  omega

variable {s : Span n} {split : Split s D}

theorem keeps_iff (h : s.split? m tolerance points = some split) :
    s.Keeps m tolerance points i ↔
      (s.before split.position split.first_lt split.lt_last).Keeps m tolerance points i ∨
        (s.after split.position split.first_lt split.lt_last).Keeps m tolerance points i := by
  simp only [Keeps, kept_of_some h, before, after, List.mem_append, List.mem_cons]
  tauto

theorem keeps_position (h : s.split? m tolerance points = some split) : s.Keeps m tolerance points split.position :=
  (s.keeps_iff h).2 (.inr (.inl rfl))

theorem keeps_before (h : s.split? m tolerance points = some split) :
    (s.before split.position split.first_lt split.lt_last).Keeps m tolerance points i ↔
      s.Keeps m tolerance points i ∧ i ≤ split.position := by
  rw [s.keeps_iff h]
  constructor
  · intro hi
    exact ⟨.inl hi, hi.le_last⟩
  · rintro ⟨hi | hi, hle⟩
    · exact hi
    · exact .inr (.inl (Nat.le_antisymm hle hi.first_le))

theorem keeps_after (h : s.split? m tolerance points = some split) :
    (s.after split.position split.first_lt split.lt_last).Keeps m tolerance points i ↔
      s.Keeps m tolerance points i ∧ split.position ≤ i := by
  rw [s.keeps_iff h]
  constructor
  · intro hi
    exact ⟨.inr hi, hi.first_le⟩
  · rintro ⟨hi | hi, hge⟩
    · exact .inl (Nat.le_antisymm hi.le_last hge)
    · exact hi

end Span

/-- A polyline keeps what it does as one span. -/
theorem mem_keptPositions_iff (m : Measure P D) (tolerance : D) {points : List P} (h : 2 < points.length) {i : Nat} :
    i ∈ keptPositions m tolerance points ↔
      (Span.whole points.length (Nat.le_of_lt h)).Keeps m tolerance (Vector.mk points.toArray rfl) i := by
  rw [mem_keptPositions, marks_iff m tolerance _ h]
  rfl

/-! ## Within the tolerance -/

section

variable (hm : m.Ordered) (ht : ∀ d, tolerance < d → m.nothing < d)
include hm ht

omit [DecidableLT D] in
theorem SplitsAt.not_lt {first last p : P} {before after : List P}
    (h : SplitsAt m m.nothing first last before p after) (hp : ¬ tolerance < m.deviation p first last) :
    ∀ q ∈ before ++ p :: after, ¬ tolerance < m.deviation q first last := by
  intro q hq hlt
  rcases List.mem_append.1 hq with hq | hq
  · exact hp (hm.trans hlt (h.before_lt q hq (ht _ hlt)))
  · rcases List.mem_cons.1 hq with rfl | hq
    · exact hp hlt
    · rcases hm.lt_or_lt h.lt hlt with hlow | hhigh
      · exact hp hlow
      · exact h.not_lt_after q hq hhigh

theorem not_lt_of_splitPosition?_eq_none {first last : P} {interior : List P}
    (h : splitPosition? m tolerance first last interior = none) :
    ∀ q ∈ interior, ¬ tolerance < m.deviation q first last := by
  rcases exists_splitsAt hm first last interior m.nothing (fun _ h => h) with
    hflat | ⟨before, p, after, rfl, hsplit⟩
  · intro q hq hlt
    exact hflat q hq (ht _ hlt)
  · rw [hsplit.splitPosition?_eq hm] at h
    exact hsplit.not_lt hm ht fun hp => by simp [hp] at h

variable {points : Vector P n}

theorem Span.not_lt_of_split?_eq_none {s : Span n} (h : s.split? m tolerance points = none) {k : Nat}
    (hk : k < n) (hfirst : s.first < k) (hlast : k < s.last) :
    ¬ tolerance < m.deviation points[k] (s.head points) (s.tip points) := by
  have hnone : splitPosition? m tolerance (s.head points) (s.tip points) (s.interior points) = none := by
    rw [s.splitPosition?_interior m tolerance points, h]
    rfl
  have hlt : k - (s.first + 1) < (s.interior points).length := by
    rw [s.length_interior]
    omega
  have hposition : s.first + 1 + (k - (s.first + 1)) = k := by omega
  have hget : (s.interior points)[k - (s.first + 1)] = points[k] := by
    rw [s.getElem_interior points hlt (by omega)]
    simp only [hposition]
  exact hget ▸ not_lt_of_splitPosition?_eq_none hm ht hnone _ (List.getElem_mem hlt)

/-- Vertices lie within the tolerance from the segment between two vertices that
a span keeps, if it keeps none in between. -/
theorem Span.not_lt_of_gap (s : Span n) {i j k : Nat} (hi : s.Keeps m tolerance points i)
    (hj : s.Keeps m tolerance points j) (hgap : ∀ l, s.Keeps m tolerance points l → ¬ (i < l ∧ l < j))
    (hik : i < k) (hkj : k < j) (hn : j < n) :
    ¬ tolerance < m.deviation points[k] points[i] points[j] := by
  fun_induction Span.kept m tolerance points s with
  | case1 s h =>
    obtain ⟨rfl, rfl⟩ := s.eq_ends_of_lt h hi hj (Nat.lt_trans hik hkj)
    exact s.not_lt_of_split?_eq_none hm ht h _ hik hkj
  | case2 s split h ihb iha =>
    -- The split vertex is kept, so the gap lies in one of the parts.
    rcases Nat.lt_or_ge i split.position with hlt | hge
    · have hle : j ≤ split.position := Nat.le_of_not_lt fun hlt' => hgap _ (s.keeps_position h) ⟨hlt, hlt'⟩
      exact ihb ((s.keeps_before h).2 ⟨hi, Nat.le_of_lt hlt⟩) ((s.keeps_before h).2 ⟨hj, hle⟩)
        fun l hl => hgap l ((s.keeps_before h).1 hl).1
    · have hle : split.position ≤ j := by omega
      exact iha ((s.keeps_after h).2 ⟨hi, hge⟩) ((s.keeps_after h).2 ⟨hj, hle⟩)
        fun l hl => hgap l ((s.keeps_after h).1 hl).1

theorem not_lt_of_gap (points : List P) {i j k : Nat} (hi : i ∈ keptPositions m tolerance points)
    (hj : j ∈ keptPositions m tolerance points)
    (hgap : ∀ l ∈ keptPositions m tolerance points, ¬ (i < l ∧ l < j)) (hik : i < k) (hkj : k < j) :
    ∃ hn : j < points.length, ¬ tolerance < m.deviation points[k] points[i] points[j] := by
  by_cases h : 2 < points.length
  · simp only [mem_keptPositions_iff m tolerance h] at hi hj hgap
    have hn : j < points.length := Nat.lt_of_le_of_lt hj.le_last (Span.whole _ _).last_lt
    exact ⟨hn, (Span.whole points.length _).not_lt_of_gap hm ht hi hj hgap hik hkj hn⟩
  · rw [keptPositions_of_le m tolerance points (by omega), List.mem_range] at hj
    omega

end

theorem ends_mem_keptPositions (m : Measure P D) (tolerance : D) {points : List P} (h : points ≠ []) :
    0 ∈ keptPositions m tolerance points ∧ points.length - 1 ∈ keptPositions m tolerance points := by
  have hpos := List.length_pos_iff.2 h
  by_cases hlong : 2 < points.length
  · simp only [mem_keptPositions_iff m tolerance hlong]
    exact ⟨.inl rfl, .inr (.inl rfl)⟩
  · rw [keptPositions_of_le m tolerance points (by omega)]
    simp only [List.mem_range]
    omega

/-- **What simplification drops lies within the tolerance** from the segment that
takes its place: the one between the nearest vertices that are kept. -/
theorem keptPositions_within {points : List (Point Float)} {tolerance : Float} (h : points ≠ [])
    (ht : 0 ≤ tolerance) :
    simplify Turtle.deviation tolerance points =
        (keptPositions Turtle.deviation tolerance points).filterMap (points[·]?) ∧
      (keptPositions Turtle.deviation tolerance points).Pairwise (· < ·) ∧
      0 ∈ keptPositions Turtle.deviation tolerance points ∧
      points.length - 1 ∈ keptPositions Turtle.deviation tolerance points ∧
      ∀ i ∈ keptPositions Turtle.deviation tolerance points,
        ∀ j ∈ keptPositions Turtle.deviation tolerance points,
          (∀ l ∈ keptPositions Turtle.deviation tolerance points, ¬ (i < l ∧ l < j)) →
            ∀ k (_ : i < k) (_ : k < j),
              ∃ _ : j < points.length, ¬ tolerance < Point.deviation points[k] points[i] points[j] := by
  have hends := ends_mem_keptPositions Turtle.deviation tolerance h
  refine ⟨simplify_eq_filterMap _ _ _, pairwise_keptPositions _ _ _, hends.1, hends.2, ?_⟩
  intro i hi j hj hgap k hik hkj
  exact not_lt_of_gap ordered_deviation (fun d hd => Exact.lt_of_le_of_lt ht hd) points hi hj hgap hik hkj

/-- A peak with a small step on either side. -/
def peak : List (Point Float) := [⟨0, 0⟩, ⟨1, 1⟩, ⟨2, 5⟩, ⟨3, 1⟩, ⟨4, 0⟩]

theorem keptPositions_within_peak :
    peak ≠ [] ∧ (0 : Float) ≤ 2 ∧ keptPositions Turtle.deviation 2 peak = [0, 2, 4] ∧
      ¬ 2 < Point.deviation ⟨1, 1⟩ ⟨0, 0⟩ ⟨2, 5⟩ := by
  have hne : peak ≠ [] := by simp [peak]
  have ht : (0 : Float) ≤ 2 := by decide
  have hkept : keptPositions Turtle.deviation 2 peak = [0, 2, 4] := by decide +kernel
  have hwithin := (keptPositions_within hne ht).2.2.2.2
  rw [hkept] at hwithin
  obtain ⟨_, hnot⟩ := hwithin 0 (by simp) 2 (by simp) (by simp) 1 (by omega) (by omega)
  exact ⟨hne, ht, hkept, hnot⟩

/-! ## Simplifying twice -/

section

variable (hm : m.Ordered)
include hm

/-- What is left the second time is what a tolerance leaves that lets go what
either of the two does. -/
theorem inner_inner {a b c : D} (hc : ∀ d, m.nothing < d → (c < d ↔ a < d ∧ b < d)) (first : P)
    (interior : List P) (last : P) :
    inner m b first (inner m a first interior last) last = inner m c first interior last := by
  induction first, interior, last using splits_induction hm with
  | flat first interior last h =>
    have hnil : IsFlat m first last [] := by simp [IsFlat]
    rw [h.inner_eq, h.inner_eq, hnil.inner_eq]
  | split first before p after last h ihb iha =>
    by_cases ha : a < m.deviation p first last
    · -- The vertex was kept, and it is the first of the farthest among those kept.
      have hkept : SplitsAt m m.nothing first last (inner m a first before p) p (inner m a p after last) :=
        h.sublist (inner_sublist hm a first before p) (inner_sublist hm a p after last)
      rw [h.inner_of_lt hm ha]
      by_cases hb : b < m.deviation p first last
      · rw [hkept.inner_of_lt hm hb, h.inner_of_lt hm ((hc _ h.lt).2 ⟨ha, hb⟩), ihb, iha]
      · rw [hkept.inner_of_not_lt hm hb, h.inner_of_not_lt hm fun hlt => hb ((hc _ h.lt).1 hlt).2]
    · have hnil : IsFlat m first last [] := by simp [IsFlat]
      rw [h.inner_of_not_lt hm ha, hnil.inner_eq, h.inner_of_not_lt hm fun hlt => ha ((hc _ h.lt).1 hlt).1]

omit hm in
theorem simplify_eq_inner (m : Measure P D) (tolerance : D) (first last : P) (interior : List P) :
    simplify m tolerance (first :: (interior ++ [last])) =
      first :: (inner m tolerance first interior last ++ [last]) := by
  rw [simplify_eq_simplifySplitting, simplifySplitting_cons_append, splitting_eq_inner, List.cons_append]

theorem Measure.Ordered.simplify_twice {a b c : D} (hc : ∀ d, m.nothing < d → (c < d ↔ a < d ∧ b < d))
    (points : List P) : simplify m b (simplify m a points) = simplify m c points := by
  by_cases h : 2 ≤ points.length
  · obtain ⟨first, interior, last, rfl⟩ := exists_eq_cons_append h
    rw [simplify_eq_inner, simplify_eq_inner, simplify_eq_inner, inner_inner hm hc]
  · have hle : points.length ≤ 2 := by omega
    rw [simplify_of_le m a hle, simplify_of_le m b hle, simplify_of_le m c hle]

end

/-- **To simplify twice is to simplify once**, with the larger of the tolerances. -/
theorem simplify_simplify (points : List (Point Float)) {a b : Float} (ha : a.isNaN = false)
    (hb : b.isNaN = false) :
    simplify Turtle.deviation b (simplify Turtle.deviation a points) =
      simplify Turtle.deviation (max a b) points :=
  ordered_deviation.simplify_twice (fun _ _ => Exact.max_lt_iff ha hb) points

theorem simplify_simplify_peak :
    (0.25 : Float).isNaN = false ∧ (2 : Float).isNaN = false ∧
      simplify Turtle.deviation 0.25 peak = peak ∧
      simplify Turtle.deviation 2 (simplify Turtle.deviation 0.25 peak) =
        simplify Turtle.deviation (max 0.25 2) peak := by
  have ha : (0.25 : Float).isNaN = false := by decide
  have hb : (2 : Float).isNaN = false := by decide
  exact ⟨ha, hb, by decide +kernel, simplify_simplify peak ha hb⟩

/-! ## A larger tolerance -/

section

variable {a b : D} (hab : ∀ d, b < d → a < d) {points : Vector P n}
include hab

/-- A split that the larger tolerance does not let go is the split for the smaller one. -/
theorem Span.split?_of_lt {s : Span n} {split : Split s D} (h : s.split? m b points = some split) :
    s.split? m a points = some split := by
  obtain ⟨hfarthest, hlt⟩ := Option.filter_eq_some_iff.1 h
  refine Option.filter_eq_some_iff.2 ⟨hfarthest, ?_⟩
  exact decide_eq_true (hab _ (of_decide_eq_true hlt))

/-- The splits of the larger tolerance are among those of the smaller one. -/
theorem Span.kept_sublist (s : Span n) : (s.kept m b points).Sublist (s.kept m a points) := by
  fun_induction Span.kept m b points s with
  | case1 s h => exact List.nil_sublist _
  | case2 s split h ihb iha =>
    rw [Span.kept_of_some (Span.split?_of_lt hab h)]
    exact ihb.append (iha.cons_cons _)

theorem keptPositions_sublist (points : List P) :
    (keptPositions m b points).Sublist (keptPositions m a points) := by
  by_cases h : 2 < points.length
  · rw [keptPositions_eq m b points h, keptPositions_eq m a points h]
    exact ((Span.kept_sublist hab _).cons_cons _).append (List.Sublist.refl _)
  · have hle : points.length ≤ 2 := by omega
    rw [keptPositions_of_le m b points hle, keptPositions_of_le m a points hle]

end

/-- **A larger tolerance keeps no vertex that a smaller one drops**, so no more
vertices are left. -/
theorem keptPositions_subset_of_le (points : List (Point Float)) {a b : Float} (h : a ≤ b) :
    (∀ tolerance : Float, simplify Turtle.deviation tolerance points =
        (keptPositions Turtle.deviation tolerance points).filterMap (points[·]?)) ∧
      keptPositions Turtle.deviation b points ⊆ keptPositions Turtle.deviation a points ∧
      (simplify Turtle.deviation b points).length ≤ (simplify Turtle.deviation a points).length := by
  have hkept := keptPositions_sublist (m := Turtle.deviation) (fun _ => Exact.lt_of_le_of_lt h) points
  refine ⟨fun tolerance => simplify_eq_filterMap Turtle.deviation tolerance points, hkept.subset, ?_⟩
  rw [simplify_eq_filterMap, simplify_eq_filterMap]
  exact (hkept.filterMap _).length_le

/-- What the tolerance of two drops is dropped by an infinite one too. -/
theorem keptPositions_subset_of_le_peak :
    (2 : Float) ≤ 1 / 0 ∧ keptPositions Turtle.deviation 2 peak = [0, 2, 4] ∧
      keptPositions Turtle.deviation (1 / 0) peak ⊆ [0, 2, 4] := by
  have hle : (2 : Float) ≤ 1 / 0 := by decide
  have hkept : keptPositions Turtle.deviation 2 peak = [0, 2, 4] := by decide +kernel
  exact ⟨hle, hkept, hkept ▸ (keptPositions_subset_of_le peak hle).2.1⟩

end SketchTurtle.Polyline
