/-
Simplification of polylines by Ramer, Douglas and Peucker: a span of the
polyline is split at the interior vertex farthest from the segment between
its ends, if that vertex deviates by more than the tolerance, and both parts
are treated alike. Of equally far vertices the first one splits.

`simplify` marks the vertices to keep from a stack of spans, so that the
depth of the splitting does not matter. The module `Geometry.Splitting` has the
same thing as a recursion on polylines.

Both work over any points and any measure of deviation whose values can be
compared with `<`; nothing is assumed of the comparison.
-/

namespace SketchTurtle.Polyline

/-- How the vertices of a polyline deviate from a segment: the measure, and
the deviation that a vertex must exceed to be noticed at all. -/
structure Measure (P D : Type) where
  deviation : P → P → P → D
  nothing : D

variable {P D : Type} [LT D] [DecidableLT D]

/-- A span of a polyline with `n` vertices, given by the positions of its two
ends. -/
structure Span (n : Nat) where
  first : Nat
  last : Nat
  first_lt_last : first < last
  last_lt : last < n
  deriving DecidableEq, Repr

/-- A vertex strictly inside a span, and its deviation. -/
structure Split {n : Nat} (s : Span n) (D : Type) where
  position : Nat
  first_lt : s.first < position
  lt_last : position < s.last
  deviation : D

namespace Span

variable {n : Nat}

/-- The part of the span up to an inner position. -/
def before (s : Span n) (i : Nat) (h₁ : s.first < i) (h₂ : i < s.last) : Span n :=
  ⟨s.first, i, h₁, Nat.lt_trans h₂ s.last_lt⟩

/-- The part of the span from an inner position on. -/
def after (s : Span n) (i : Nat) (_ : s.first < i) (h₂ : i < s.last) : Span n :=
  ⟨i, s.last, h₂, s.last_lt⟩

/-- The number of edges. -/
def edges (s : Span n) : Nat := s.last - s.first

/-- The farthest vertex among those from position `i` on and the one found
before, of which a later vertex must be strictly farther. -/
def farthestFrom (m : Measure P D) (points : Vector P n) (s : Span n) (i : Nat)
    (h : s.first < i) (best : Option (Split s D)) : Option (Split s D) :=
  if h' : i < s.last then
    have := s.last_lt
    have := s.first_lt_last
    let d := m.deviation points[i] points[s.first] points[s.last]
    let reached := match best with
      | none => m.nothing
      | some split => split.deviation
    farthestFrom m points s (i + 1) (by omega)
      (if reached < d then some ⟨i, h, h', d⟩ else best)
  else best
  termination_by s.last - i

/-- The vertex at which the span is split if its deviation is too large. -/
def farthest (m : Measure P D) (points : Vector P n) (s : Span n) : Option (Split s D) :=
  farthestFrom m points s (s.first + 1) (by omega) none

/-- The vertex that the tolerance does not let go. -/
def split? (m : Measure P D) (tolerance : D) (points : Vector P n) (s : Span n) :
    Option (Split s D) :=
  (farthest m points s).filter fun split => tolerance < split.deviation

end Span

/-! ## The work stack -/

/-- The spans still to be looked at, the next one first, and the marks of the
vertices to keep. -/
structure Work (n : Nat) where
  stack : List (Span n)
  keep : Vector Bool n

namespace Work

variable {n : Nat}

/-- One span is looked at: its split vertex is marked and both parts take its
place, the first part to be looked at first. -/
def step (m : Measure P D) (tolerance : D) (points : Vector P n) (w : Work n) : Work n :=
  match w.stack with
  | [] => w
  | s :: rest =>
    match s.split? m tolerance points with
    | none => { w with stack := rest }
    | some split =>
      { stack := s.before split.position split.first_lt split.lt_last ::
          s.after split.position split.first_lt split.lt_last :: rest
        keep := w.keep.set split.position true (Nat.lt_trans split.lt_last s.last_lt) }

/-- The steps that the spans of a stack can take at most: a span of `k` edges
takes no more than `2 * k - 1`. -/
def bound : List (Span n) → Nat
  | [] => 0
  | s :: rest => 2 * s.edges - 1 + bound rest

theorem bound_step_lt (m : Measure P D) (tolerance : D) (points : Vector P n) (w : Work n)
    (h : w.stack ≠ []) : bound (w.step m tolerance points).stack < bound w.stack := by
  unfold step
  split
  · contradiction
  · rename_i s rest hs
    rw [hs, bound]
    have := s.first_lt_last
    split
    · show bound rest < _
      unfold Span.edges; omega
    · rename_i split _
      have := split.first_lt
      have := split.lt_last
      simp only [bound, Span.before, Span.after, Span.edges]
      omega

/-- Steps until no span is left. -/
def run (m : Measure P D) (tolerance : D) (points : Vector P n) (w : Work n) : Work n :=
  if _h : w.stack = [] then w else run m tolerance points (w.step m tolerance points)
  termination_by bound w.stack
  decreasing_by exact bound_step_lt m tolerance points w _h

/-- The whole polyline is one span whose ends are kept. -/
def start (h : 2 ≤ n) : Work n where
  stack := [⟨0, n - 1, by omega, by omega⟩]
  keep := ((Vector.replicate n false).set 0 true).set (n - 1) true

end Work

/-- The marks of the vertices that are kept. -/
def marks {n : Nat} (m : Measure P D) (tolerance : D) (points : Vector P n) : Vector Bool n :=
  if h : n ≤ 2 then Vector.replicate n true
  else ((Work.start (by omega)).run m tolerance points).keep

/-- The positions of the vertices that are kept. -/
def keptPositions (m : Measure P D) (tolerance : D) (points : List P) : List Nat :=
  let keep := marks m tolerance (Vector.mk points.toArray rfl)
  (keep.toList.zipIdx.filter (·.1)).map (·.2)

/-- The polyline through the vertices that are kept. -/
def simplify (m : Measure P D) (tolerance : D) (points : List P) : List P :=
  let keep := marks m tolerance (Vector.mk points.toArray rfl)
  ((points.zip keep.toList).filter (·.2)).map (·.1)

end SketchTurtle.Polyline
