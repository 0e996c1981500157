/-
The positions that the work stack keeps, span by span.

What a span adds to the marks depends on the span alone (`Span.kept`): its
split vertex and what both parts add. A step takes one span off the stack
and neither adds to nor loses from what is marked or will be
(`Work.covers_step`), so after the last step the marks are those of the
start and what the whole polyline adds (`marks_iff`), and the positions
kept are its ends and these, in order (`keptPositions_eq`).
-/
import SketchTurtle.Geometry.Simplify
import Mathlib.Data.List.Sort

namespace SketchTurtle.Polyline

variable {P D : Type} [LT D] [DecidableLT D] {n : Nat}

namespace Span

/-- The positions kept strictly inside a span, in order. -/
def kept (m : Measure P D) (tolerance : D) (points : Vector P n) (s : Span n) : List Nat :=
  match s.split? m tolerance points with
  | none => []
  | some split =>
    kept m tolerance points (s.before split.position split.first_lt split.lt_last) ++
      split.position :: kept m tolerance points (s.after split.position split.first_lt split.lt_last)
  termination_by s.edges
  decreasing_by
    all_goals
      have := split.first_lt
      have := split.lt_last
      simp only [edges, before, after]
      omega

variable {m : Measure P D} {tolerance : D} {points : Vector P n}

theorem kept_of_none {s : Span n} (h : s.split? m tolerance points = none) :
    s.kept m tolerance points = [] := by
  rw [kept, h]

theorem kept_of_some {s : Span n} {split : Split s D} (h : s.split? m tolerance points = some split) :
    s.kept m tolerance points =
      (s.before split.position split.first_lt split.lt_last).kept m tolerance points ++
        split.position :: (s.after split.position split.first_lt split.lt_last).kept m tolerance points := by
  rw [kept, h]

variable (m tolerance points)

/-- What a span keeps lies strictly inside it. -/
theorem mem_kept (s : Span n) : ∀ i ∈ s.kept m tolerance points, s.first < i ∧ i < s.last := by
  fun_induction kept m tolerance points s with
  | case1 s h => simp
  | case2 s split h ihl ihr =>
    intro i hi
    have := split.first_lt
    have := split.lt_last
    simp only [before, after] at ihl ihr
    rcases List.mem_append.1 hi with hi | hi
    · have := ihl i hi
      omega
    · rcases List.mem_cons.1 hi with rfl | hi
      · omega
      · have := ihr i hi
        omega

theorem pairwise_kept (s : Span n) : (s.kept m tolerance points).Pairwise (· < ·) := by
  fun_induction kept m tolerance points s with
  | case1 s h => exact .nil
  | case2 s split h ihl ihr =>
    have hl := mem_kept m tolerance points (s.before split.position split.first_lt split.lt_last)
    have hr := mem_kept m tolerance points (s.after split.position split.first_lt split.lt_last)
    refine List.pairwise_append.2 ⟨ihl, List.pairwise_cons.2 ⟨fun j hj => (hr j hj).1, ihr⟩, ?_⟩
    intro i hi j hj
    have hi := (hl i hi).2
    rcases List.mem_cons.1 hj with rfl | hj
    · exact hi
    · exact Nat.lt_trans hi (hr j hj).1

end Span

/-! ## The work stack -/

namespace Work

variable {m : Measure P D} {tolerance : D} {points : Vector P n}

/-- A position that is marked, or will be by what the stack holds. -/
def Covers (m : Measure P D) (tolerance : D) (points : Vector P n) (w : Work n) (i : Nat) : Prop :=
  w.keep[i]? = some true ∨ ∃ s ∈ w.stack, i ∈ s.kept m tolerance points

theorem covers_step (w : Work n) (i : Nat) :
    (w.step m tolerance points).Covers m tolerance points i ↔ w.Covers m tolerance points i := by
  unfold step
  split
  · exact Iff.rfl
  · next s rest hs =>
    split
    · next h => simp [Covers, hs, Span.kept_of_none h]
    · next split h =>
      have hlt : split.position < n := Nat.lt_trans split.lt_last s.last_lt
      have hset : (w.keep.set split.position true hlt)[i]? = some true ↔
          w.keep[i]? = some true ∨ i = split.position := by
        by_cases hi : i = split.position
        · simp [hi, hlt]
        · simp [hi, Ne.symm hi]
      simp only [Covers, hset, hs, List.mem_cons, exists_eq_or_imp, Span.kept_of_some h,
        List.mem_append]
      tauto

/-- After the last step what was marked or would be is marked. -/
theorem keep_run (w : Work n) (i : Nat) :
    (w.run m tolerance points).keep[i]? = some true ↔ w.Covers m tolerance points i := by
  fun_induction run m tolerance points w with
  | case1 w h => simp [Covers, h]
  | case2 w h ih => rw [ih, covers_step]

end Work

/-! ## The positions kept -/

theorem map_fst_filter_zip {α : Type} (l : List α) (keep : List Bool) :
    ((l.zip keep).filter (·.2)).map (·.1) =
      ((keep.zipIdx.filter (·.1)).map (·.2)).filterMap (l[·]?) := by
  induction l generalizing keep with
  | nil => simp
  | cons a l ih =>
    cases keep with
    | nil => simp
    | cons b keep =>
      have shift : (((keep.zipIdx.map (Prod.map id (· + 1))).filter (·.1)).map (·.2)).filterMap
          ((a :: l)[·]?) = ((keep.zipIdx.filter (·.1)).map (·.2)).filterMap (l[·]?) := by
        simp [List.filter_map, List.filterMap_map, Function.comp_def]
      rw [List.zipIdx_cons', List.zip_cons_cons]
      cases b with
      | false => simpa using (ih keep).trans shift.symm
      | true => simpa using (ih keep).trans shift.symm

section

variable (m : Measure P D) (tolerance : D)

theorem Span.whole_pos {n : Nat} (h : 2 ≤ n) : 0 < n - 1 := by
  omega

theorem Span.whole_lt {n : Nat} (h : 2 ≤ n) : n - 1 < n := by
  omega

/-- The span of a whole polyline. -/
def Span.whole (n : Nat) (h : 2 ≤ n) : Span n := ⟨0, n - 1, whole_pos h, whole_lt h⟩

theorem marks_iff (points : Vector P n) (h : 2 < n) (i : Nat) :
    (marks m tolerance points)[i]? = some true ↔
      i = 0 ∨ i = n - 1 ∨ i ∈ (Span.whole n (by omega)).kept m tolerance points := by
  have hstart : (Work.start (n := n) (by omega)).keep[i]? = some true ↔ i = 0 ∨ i = n - 1 := by
    simp only [Work.start, Vector.getElem?_set, Vector.getElem?_replicate]
    split
    · simp; omega
    · split
      · simp; omega
      · split <;> simp <;> omega
  rw [marks, dif_neg (by omega), Work.keep_run, Work.Covers, hstart]
  simp [Work.start, Span.whole, or_assoc]

theorem mem_keptPositions (points : List P) (i : Nat) :
    i ∈ keptPositions m tolerance points ↔
      (marks m tolerance (Vector.mk points.toArray rfl))[i]? = some true := by
  simp [keptPositions, List.mem_zipIdx_iff_getElem?]

theorem pairwise_keptPositions (points : List P) :
    (keptPositions m tolerance points).Pairwise (· < ·) := by
  refine List.Pairwise.sublist (List.Sublist.map _ List.filter_sublist) ?_
  rw [List.zipIdx_map_snd]
  exact List.pairwise_lt_range'

theorem keptPositions_of_le (points : List P) (h : points.length ≤ 2) :
    keptPositions m tolerance points = List.range points.length := by
  refine List.Pairwise.eq_of_mem_iff (pairwise_keptPositions m tolerance points)
    List.pairwise_lt_range fun i => ?_
  rw [mem_keptPositions, marks, dif_pos (by simpa using h)]
  simp [Vector.getElem?_replicate]

/-- A longer polyline keeps its ends and what lies between them. -/
theorem keptPositions_eq (points : List P) (h : 2 < points.length) :
    keptPositions m tolerance points =
      0 :: (Span.whole points.length (by omega)).kept m tolerance (Vector.mk points.toArray rfl) ++
        [points.length - 1] := by
  have hmem := Span.mem_kept m tolerance (Vector.mk points.toArray rfl)
    (Span.whole points.length (by omega))
  refine List.Pairwise.eq_of_mem_iff (pairwise_keptPositions m tolerance points) ?_ fun i => ?_
  · refine List.pairwise_append.2 ⟨List.pairwise_cons.2 ⟨fun i hi => (hmem i hi).1, ?_⟩, ?_, ?_⟩
    · exact Span.pairwise_kept m tolerance _ _
    · exact List.pairwise_singleton ..
    · intro i hi j hj
      rw [List.mem_singleton.1 hj]
      rcases List.mem_cons.1 hi with rfl | hi
      · omega
      · exact (hmem i hi).2
  · rw [mem_keptPositions, marks_iff m tolerance _ (by simpa using h)]
    simp only [List.cons_append, List.mem_cons, List.mem_append, List.not_mem_nil, or_false]
    tauto

/-- The polyline that is left goes through the positions kept. -/
theorem simplify_eq_filterMap (points : List P) :
    simplify m tolerance points = (keptPositions m tolerance points).filterMap (points[·]?) :=
  map_fst_filter_zip points _

end

end SketchTurtle.Polyline
