/-
Points, segments and their distances, over any scalars with arithmetic and
an order: doubles when the program runs, rationals where exact statements
are made. Distances are compared by their squares wherever a root is not
needed.
-/

namespace SketchTurtle

/-- A point of the plane. -/
structure Point (K : Type) where
  x : K
  y : K
  deriving DecidableEq, Repr

namespace Point

variable {K : Type} [Add K] [Sub K] [Mul K] [Div K] [OfNat K 0] [OfNat K 1]
  [BEq K] [LT K] [DecidableLT K]

/-- The square of the distance between two points. -/
def distanceSq (p q : Point K) : K :=
  let dx := q.x - p.x
  let dy := q.y - p.y
  dx * dx + dy * dy

/-- The scalar brought into the range from zero to one. What is less than
nothing and more than nothing, such as a double that is no number, counts as
one. -/
def clamp (t : K) : K :=
  let capped : K := if t < 1 then t else 1
  if 0 < capped then capped else 0

/-- The parameter of the point nearest to `p` on the line from `a` to `b`,
kept within the segment. -/
def projection (p a b : Point K) : K :=
  let dx := b.x - a.x
  let dy := b.y - a.y
  clamp (((p.x - a.x) * dx + (p.y - a.y) * dy) / distanceSq a b)

/-- The point of the segment from `a` to `b` with the given parameter. -/
def along (a b : Point K) (t : K) : Point K :=
  ⟨a.x + t * (b.x - a.x), a.y + t * (b.y - a.y)⟩

/-- The square of the distance from `p` to the segment from `a` to `b`, of
which only `a` counts if both ends are the same. -/
def deviationSq (p a b : Point K) : K :=
  if distanceSq a b == 0 then distanceSq p a
  else distanceSq (along a b (projection p a b)) p

end Point

/-! ## Doubles -/

namespace Point

/-- The distance between two points. -/
def distance (p q : Point Float) : Float := Float.sqrt (distanceSq p q)

/-- The distance from a point to a segment. -/
def deviation (p a b : Point Float) : Float := Float.sqrt (deviationSq p a b)

/-- The number of degrees in one radian. -/
def degreesPerRadian : Float := 180.0 / 3.141592653589793

/-- The direction from `p` to `q` in degrees: zero along the first axis,
growing counter-clockwise. -/
def heading (p q : Point Float) : Float :=
  Float.atan2 (q.y - p.y) (q.x - p.x) * degreesPerRadian

/-- The point of the canvas, whose origin is the top left corner, in the frame
of the turtle, whose origin is the centre and whose second axis points up. -/
def toTurtle (width height : Float) (p : Point Float) : Point Float :=
  ⟨p.x - width / 2, height / 2 - p.y⟩

end Point

end SketchTurtle
