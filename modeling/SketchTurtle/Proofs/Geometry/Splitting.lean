/-
The work stack and the recursion leave the same polyline.

A span stands for the polyline it spans: both are searched alike
(`Span.farthestFrom_eq`), so they split at the same vertex
(`Span.splitPosition?_interior`), and what the recursion leaves of it are the
span's ends and the positions that the span keeps (`splitting_interior`).
Nothing is assumed of the comparison of deviations.
-/
import SketchTurtle.Geometry.Splitting
import SketchTurtle.Proofs.Geometry.Kept

namespace SketchTurtle.Polyline

variable {P D : Type} [LT D] [DecidableLT D] {n : Nat}

theorem farthestBeyond_cons (m : Measure P D) (first last : P) (reached : D) (p : P) (rest : List P) :
    farthestBeyond m first last reached (p :: rest) =
      if reached < m.deviation p first last then
        ((farthestBeyond m first last (m.deviation p first last) rest).map fun (i, d) => (i + 1, d)).or
          (some (0, m.deviation p first last))
      else (farthestBeyond m first last reached rest).map fun (i, d) => (i + 1, d) := by
  rw [farthestBeyond]
  split
  · cases farthestBeyond m first last (m.deviation p first last) rest <;> rfl
  · rfl

namespace Span

theorem first_lt (s : Span n) : s.first < n := Nat.lt_trans s.first_lt_last s.last_lt

/-- The vertex at the beginning of a span. -/
def head (points : Vector P n) (s : Span n) : P :=
  have := s.first_lt
  points[s.first]

/-- The vertex at the end of a span. -/
def tip (points : Vector P n) (s : Span n) : P :=
  have := s.last_lt
  points[s.last]

/-- The vertices strictly inside a span. -/
def interior (points : Vector P n) (s : Span n) : List P :=
  (points.toList.drop (s.first + 1)).take (s.last - (s.first + 1))

/-- The position and the deviation of a split vertex. -/
def Split.found {s : Span n} (split : Split s D) : Nat × D := (split.position, split.deviation)

/-- The deviation that a later vertex must exceed. -/
def reached (m : Measure P D) {s : Span n} : Option (Split s D) → D
  | none => m.nothing
  | some split => split.deviation

theorem first_lt_succ (s : Span n) {i : Nat} (h : s.first < i) : s.first < i + 1 := Nat.lt_succ_of_lt h

theorem farthestFrom_succ (m : Measure P D) (points : Vector P n) (s : Span n) (i : Nat)
    (h : s.first < i) (hi : i < s.last) (hn : i < n) (best : Option (Split s D)) :
    farthestFrom m points s i h best =
      farthestFrom m points s (i + 1) (s.first_lt_succ h)
        (if reached m best < m.deviation points[i] (s.head points) (s.tip points) then
          some ⟨i, h, hi, m.deviation points[i] (s.head points) (s.tip points)⟩
        else best) := by
  rw [farthestFrom.eq_def, dif_pos hi]
  cases best <;> rfl

theorem slice_succ (points : Vector P n) {i last : Nat} (hi : i < last) (hn : last < n) :
    (points.toList.drop i).take (last - i) =
      points[i] :: (points.toList.drop (i + 1)).take (last - (i + 1)) := by
  have hlt : i < points.toList.length := by simp; omega
  rw [List.drop_eq_getElem_cons hlt, show last - i = last - (i + 1) + 1 by omega, List.take_succ_cons]
  simp

omit [LT D] [DecidableLT D] in
/-- Positions counted from the next vertex on, counted from this one. -/
theorem shift_comp_succ (i : Nat) :
    (fun ((j, d) : Nat × D) => (i + j, d)) ∘ (fun ((j, d) : Nat × D) => (j + 1, d)) =
      fun ((j, d) : Nat × D) => (i + 1 + j, d) := by
  funext found
  simp only [Function.comp, Prod.mk.injEq, and_true]
  omega

theorem farthestFrom_eq (m : Measure P D) (points : Vector P n) (s : Span n) (i : Nat) (h : s.first < i)
    (best : Option (Split s D)) :
    (farthestFrom m points s i h best).map Split.found =
      ((farthestBeyond m (s.head points) (s.tip points) (reached m best)
        ((points.toList.drop i).take (s.last - i))).map fun (j, d) => (i + j, d)).or
      (best.map Split.found) := by
  induction hk : s.last - i generalizing i best with
  | zero =>
    rw [farthestFrom.eq_def, dif_neg (by omega)]
    simp [farthestBeyond]
  | succ k ih =>
    have hi : i < s.last := by omega
    rw [farthestFrom_succ m points s i h hi (Nat.lt_trans hi s.last_lt), ih (i + 1) _ _ (by omega), ← hk,
      slice_succ points hi s.last_lt, show s.last - (i + 1) = k by omega, farthestBeyond_cons]
    split
    · rw [Option.map_or, Option.map_map, shift_comp_succ, Option.or_assoc]
      rfl
    · rw [Option.map_map, shift_comp_succ]

variable (m : Measure P D) (tolerance : D) (points : Vector P n)

/-- The split of a span is that of the polyline it spans. -/
theorem splitPosition?_interior (s : Span n) :
    splitPosition? m tolerance (s.head points) (s.tip points) (s.interior points) =
      (s.split? m tolerance points).map fun split => split.position - (s.first + 1) := by
  have hfound : (s.farthest m points).map Split.found =
      (farthestBeyond m (s.head points) (s.tip points) m.nothing
        (s.interior points)).map fun (j, d) => (s.first + 1 + j, d) := by
    rw [farthest, farthestFrom_eq]
    simp [reached, interior]
  rw [splitPosition?, split?]
  revert hfound
  generalize farthestBeyond m _ _ _ _ = beyond
  cases s.farthest m points with
  | none =>
    cases beyond with
    | none => simp
    | some found => simp
  | some split =>
    cases beyond with
    | none => simp
    | some found =>
      intro hfound
      simp only [Option.map_some, Option.some.injEq, Split.found, Prod.mk.injEq] at hfound
      obtain ⟨hposition, hdeviation⟩ := hfound
      simp only [Option.bind_some, Option.filter_some, ← hdeviation, decide_eq_true_eq]
      split
      · rw [Option.map_some, hposition]
        simp
      · rfl

theorem length_interior (s : Span n) : (s.interior points).length = s.last - (s.first + 1) := by
  have := s.last_lt
  simp [interior]
  omega

theorem getElem_interior (s : Span n) {i : Nat} (hi : i < (s.interior points).length)
    (hn : s.first + 1 + i < n) : (s.interior points)[i] = points[s.first + 1 + i] := by
  simp [interior]

theorem interior_before (s : Span n) (i : Nat) (h₁ : s.first < i) (h₂ : i < s.last) :
    (s.before i h₁ h₂).interior points = (s.interior points).take (i - (s.first + 1)) := by
  simp only [interior, before, List.take_take]
  congr 1
  omega

theorem interior_after (s : Span n) (i : Nat) (h₁ : s.first < i) (h₂ : i < s.last) :
    (s.after i h₁ h₂).interior points = (s.interior points).drop (i - (s.first + 1) + 1) := by
  simp only [interior, after, List.drop_take, List.drop_drop]
  congr 1
  · omega
  · congr 1
    omega

end Span

variable (m : Measure P D) (tolerance : D)

theorem splitting_of_none {first last : P} {interior : List P}
    (h : splitPosition? m tolerance first last interior = none) :
    splitting m tolerance first interior last = [first, last] := by
  rw [splitting]
  split
  · rfl
  · next h' => rw [h] at h'; cases h'

theorem splitting_of_some {first last : P} {interior : List P} {i : Nat} (hi : i < interior.length)
    (h : splitPosition? m tolerance first last interior = some i) :
    splitting m tolerance first interior last =
      (splitting m tolerance first (interior.take i) interior[i]).dropLast ++
        splitting m tolerance interior[i] (interior.drop (i + 1)) last := by
  rw [splitting]
  split
  · next h' => rw [h] at h'; cases h'
  · next j h' =>
    rw [h] at h'
    cases h'
    rfl

/-- Splitting the polyline that a span spans leaves the ends of the span and
what the span keeps. -/
theorem splitting_interior (points : Vector P n) (s : Span n) :
    splitting m tolerance (s.head points) (s.interior points) (s.tip points) =
      (s.first :: s.kept m tolerance points ++ [s.last]).filterMap (points.toList[·]?) := by
  have hget (i : Nat) (hi : i < n) : points.toList[i]? = some points[i] := by simp [hi]
  fun_induction Span.kept m tolerance points s with
  | case1 s h =>
    rw [splitting_of_none m tolerance (by rw [Span.splitPosition?_interior, h]; rfl)]
    simp [s.first_lt, s.last_lt, Span.head, Span.tip]
  | case2 s split h ihl ihr =>
    have hfirst := split.first_lt
    have hlast := split.lt_last
    have hmid : split.position < n := Nat.lt_trans hlast s.last_lt
    have hi : split.position - (s.first + 1) < (s.interior points).length := by
      rw [Span.length_interior]
      omega
    have hvertex : (s.interior points)[split.position - (s.first + 1)] = points[split.position] := by
      have hposition : s.first + 1 + (split.position - (s.first + 1)) = split.position := by omega
      rw [Span.getElem_interior points s hi (by omega)]
      simp only [hposition]
    rw [splitting_of_some m tolerance hi (by rw [Span.splitPosition?_interior, h]; rfl), hvertex,
      ← Span.interior_before points s _ hfirst hlast, ← Span.interior_after points s _ hfirst hlast]
    -- The shared vertex ends the first part and begins the second.
    refine (congrArg₂ (fun left right => left.dropLast ++ right) ihl ihr).trans ?_
    simp only [Span.before, Span.after, List.filterMap_append, List.cons_append, List.append_assoc,
      List.filterMap_cons, List.filterMap_nil, hget, s.first_lt, s.last_lt, hmid]
    rw [← List.cons_append, List.dropLast_concat, List.cons_append]

theorem exists_splitting_eq (first last : P) (interior : List P) :
    ∃ inner, splitting m tolerance first interior last = first :: (inner ++ [last]) := by
  fun_induction splitting m tolerance first interior last with
  | case1 first interior last h => exact ⟨[], rfl⟩
  | case2 first interior last i h hi ihl ihr =>
    obtain ⟨left, hl⟩ := ihl
    obtain ⟨right, hr⟩ := ihr
    refine ⟨left ++ interior[i] :: right, ?_⟩
    rw [hl, hr, ← List.cons_append, List.dropLast_concat]
    simp

theorem simplifySplitting_cons_append (first last : P) (interior : List P) :
    simplifySplitting m tolerance (first :: (interior ++ [last])) =
      splitting m tolerance first interior last := by
  cases interior with
  | nil => rfl
  | cons second rest =>
    rw [List.cons_append, simplifySplitting]
    congr 1
    · rw [← List.cons_append, List.dropLast_concat]
    · simp

theorem exists_eq_cons_append {points : List P} (h : 2 ≤ points.length) :
    ∃ first interior last, points = first :: (interior ++ [last]) := by
  match points with
  | first :: second :: rest =>
    exact ⟨first, _, _, congrArg _ (List.dropLast_append_getLast (by simp)).symm⟩

/-- **What the work stack leaves of a polyline is what the recursion leaves**,
whatever the deviations are and however they compare. -/
theorem simplify_eq_simplifySplitting (points : List P) :
    simplify m tolerance points = simplifySplitting m tolerance points := by
  rw [simplify_eq_filterMap]
  by_cases h : 2 < points.length
  · obtain ⟨first, interior, last, rfl⟩ := exists_eq_cons_append (Nat.le_of_lt h)
    rw [keptPositions_eq m tolerance _ h, simplifySplitting_cons_append]
    have hs := splitting_interior m tolerance (Vector.mk (first :: (interior ++ [last])).toArray rfl)
      (Span.whole _ (Nat.le_of_lt h))
    simpa [Span.head, Span.tip, Span.interior, Span.whole] using hs.symm
  · rw [keptPositions_of_le m tolerance points (by omega)]
    rcases points with _ | ⟨p, _ | ⟨q, _ | ⟨r, rest⟩⟩⟩
    · rfl
    · rfl
    · exact (splitting_of_none m tolerance rfl).symm
    · simp at h

theorem simplify_of_le {points : List P} (h : points.length ≤ 2) : simplify m tolerance points = points := by
  rw [simplify_eq_simplifySplitting]
  rcases points with _ | ⟨p, _ | ⟨q, _ | ⟨r, rest⟩⟩⟩
  · rfl
  · rfl
  · exact splitting_of_none m tolerance rfl
  · simp at h

theorem exists_simplify_eq (first last : P) (interior : List P) :
    ∃ inner, simplify m tolerance (first :: (interior ++ [last])) = first :: (inner ++ [last]) := by
  rw [simplify_eq_simplifySplitting, simplifySplitting_cons_append]
  exact exists_splitting_eq m tolerance first last interior

end SketchTurtle.Polyline
