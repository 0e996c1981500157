/-
Simplification of polylines as a recursion: a polyline is split at its
farthest interior vertex, the parts are simplified, and the vertex that they
share is kept once. It takes the same measures as `Polyline.simplify`, and
assumes nothing of their comparison either.
-/
import SketchTurtle.Geometry.Simplify

namespace SketchTurtle.Polyline

variable {P D : Type} [LT D] [DecidableLT D]

/-- The position of the vertex farthest from the segment between two points,
and its deviation, if one deviates by more than `reached`. Of equally far
vertices it is the first. -/
def farthestBeyond (m : Measure P D) (first last : P) : D → List P → Option (Nat × D)
  | _, [] => none
  | reached, p :: rest =>
    let d := m.deviation p first last
    if reached < d then
      match farthestBeyond m first last d rest with
      | some (i, further) => some (i + 1, further)
      | none => some (0, d)
    else (farthestBeyond m first last reached rest).map fun (i, further) => (i + 1, further)

theorem farthestBeyond_lt (m : Measure P D) (first last : P) (points : List P) :
    ∀ (reached : D) {i : Nat} {d : D},
      farthestBeyond m first last reached points = some (i, d) → i < points.length := by
  induction points with
  | nil => intro reached i d h; simp [farthestBeyond] at h
  | cons p rest ih =>
    intro reached i d h
    simp only [farthestBeyond] at h
    split at h
    · split at h
      · rename_i j e he
        have := ih _ he
        simp only [Option.some.injEq, Prod.mk.injEq] at h
        simp only [List.length_cons]
        omega
      · simp only [Option.some.injEq, Prod.mk.injEq] at h
        simp only [List.length_cons]
        omega
    · obtain ⟨⟨j, e⟩, he, hj⟩ := Option.map_eq_some_iff.1 h
      have := ih _ he
      simp only [Prod.mk.injEq] at hj
      simp only [List.length_cons]
      omega

/-- The interior vertex at which a polyline is split, counted among the
interior ones, if it deviates by more than the tolerance. -/
def splitPosition? (m : Measure P D) (tolerance : D) (first last : P) (interior : List P) :
    Option Nat :=
  (farthestBeyond m first last m.nothing interior).bind fun (i, d) =>
    if tolerance < d then some i else none

theorem splitPosition?_lt {m : Measure P D} {tolerance : D} {first last : P} {interior : List P}
    {i : Nat} (h : splitPosition? m tolerance first last interior = some i) :
    i < interior.length := by
  obtain ⟨⟨j, d⟩, hj, hi⟩ := Option.bind_eq_some_iff.1 h
  simp only at hi
  split at hi
  · rw [← Option.some.inj hi]; exact farthestBeyond_lt m first last interior _ hj
  · cases hi

/-- The polyline that is left of one with two ends and what lies between
them. -/
def splitting (m : Measure P D) (tolerance : D) (first : P) (interior : List P) (last : P) :
    List P :=
  match h : splitPosition? m tolerance first last interior with
  | none => [first, last]
  | some i =>
    have hi := splitPosition?_lt h
    (splitting m tolerance first (interior.take i) interior[i]).dropLast ++
      splitting m tolerance interior[i] (interior.drop (i + 1)) last
  termination_by interior.length
  decreasing_by
    · simp only [List.length_take]; omega
    · simp only [List.length_drop]; omega

/-- The polyline that is left of a polyline. -/
def simplifySplitting (m : Measure P D) (tolerance : D) : List P → List P
  | first :: second :: rest =>
    splitting m tolerance first ((second :: rest).dropLast) ((second :: rest).getLast (by simp))
  | points => points

end SketchTurtle.Polyline
