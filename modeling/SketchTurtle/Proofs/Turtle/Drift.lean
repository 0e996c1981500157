/-
How far the turtle strays from the path.

A segment within the deadband is not drawn, and the turtle is not moved in its place; the
next segment that is drawn starts from where the turtle is, and not from where the segment
begins. So the turtle trails the path by the segments that were suppressed since the stroke
began, and by nothing else (`travel_courseUpTo`): what a stroke has left behind is gone when
the next one begins, because that begins with a jump.

The moves of a program are told by the points that they lead from and to (`Motion`), and a
segment is taken for the vector between its ends, whatever the points are read as. Without
rounding a segment within the deadband is at most half a unit long along either axis
(`abs_le_half_of_not_isDrawn`), which bounds what adds up (`abs_travel_sub_le`). The distance
that a program compares with the deadband is rounded four times over, but all that can be
lost by that is half a unit in the last place (`abs_le_of_not_isDrawn`).
-/
import SketchTurtle.Proofs.Geometry.Nearness
import SketchTurtle.Proofs.Number.Arithmetic
import SketchTurtle.Proofs.Turtle.Drawing
import SketchTurtle.Proofs.Turtle.Tally
import Mathlib.Algebra.BigOperators.Group.List.Basic
import Mathlib.Tactic.Abel

namespace SketchTurtle.Turtle

/-! ## Planes -/

/-- The geometry that strokes are planned in: the measure by which they are simplified, the
move into the turtle's frame, and which segments are drawn. -/
structure Plane (P D : Type) where
  measure : Polyline.Measure P D
  toTurtle : P → P
  isDrawn : P × P → Bool

/-- The plane of a program, whose coordinates are doubles. -/
def Plane.doubles (options : Options) : Plane (Point Float) Float where
  measure := deviation
  toTurtle := Point.toTurtle options.width options.height
  isDrawn := Turtle.isDrawn

/-- The same plane without rounding, where distances are compared by their squares. -/
def Plane.exact (width height : ℚ) : Plane (Point ℚ) ℚ where
  measure := Polyline.squares ℚ
  toTurtle p := ⟨p.x - width / 2, height / 2 - p.y⟩
  isDrawn s := (1 / 2) ^ 2 < Point.distanceSq s.1 s.2

section Course

variable {P D : Type} [LT D] [DecidableLT D] (plane : Plane P D)

/-- The points that a polyline is drawn through, in the turtle's frame. -/
def Plane.outline (tolerance : D) (points : List P) : List P :=
  (Polyline.simplify plane.measure tolerance points).map plane.toTurtle

/-- A move of the turtle: it jumps to a point, or draws the segment between two. -/
inductive Motion (P : Type) where
  | jump (p : P)
  | draw (p q : P)

/-- The moves of the turtle along the first segments of an outline, to whose beginning it
jumps. -/
def courseUpTo (n : Nat) (points : List P) : List (Motion P) :=
  (points.take 1).map .jump ++ (((segments points).take n).filter plane.isDrawn).map fun s => .draw s.1 s.2

/-- The moves of the turtle along an outline. -/
def course (points : List P) : List (Motion P) := courseUpTo plane points.length points

/-- The segments that are suppressed among the first of an outline. -/
def suppressedUpTo (n : Nat) (points : List P) : List (P × P) :=
  ((segments points).take n).filter (!plane.isDrawn ·)

end Course

/-- The operations that make the turtle move so. -/
def Motion.ops : Motion (Point Float) → List Operation
  | .jump p => [.goTo p.x p.y]
  | .draw p q => segmentOps (p, q)

/-! ## Where the turtle is -/

section Travel

variable {P V : Type} [AddCommGroup V] (read : P → V)

/-- Where a move takes the turtle. -/
def Motion.next (place : V) : Motion P → V
  | .jump p => read p
  | .draw p q => place + (read q - read p)

/-- Where moves take the turtle. -/
def travel (place : V) (motions : List (Motion P)) : V := motions.foldl (Motion.next read) place

theorem travel_append (place : V) (motions more : List (Motion P)) :
    travel read place (motions ++ more) = travel read (travel read place motions) more := List.foldl_append

/-- The vectors of some segments, put together. -/
def total (parts : List (P × P)) : V := (parts.map fun s => read s.2 - read s.1).sum

theorem total_append (parts more : List (P × P)) : total read (parts ++ more) = total read parts + total read more := by
  rw [total, total, total, List.map_append, List.sum_append]

variable {D : Type} (plane : Plane P D)

/-- One segment takes the turtle along, or adds to what it trails the path by. -/
theorem travel_segment (s : P × P) (lag : V) :
    travel read (read s.1 - lag) (([s].filter plane.isDrawn).map fun s => .draw s.1 s.2) =
      read s.2 - (lag + total read ([s].filter (!plane.isDrawn ·))) := by
  cases hdrawn : plane.isDrawn s with
  | true =>
    simp only [List.filter_cons, hdrawn, if_true, Bool.not_true, Bool.false_eq_true, if_false, List.filter_nil,
      List.map_cons, List.map_nil, travel, List.foldl_cons, List.foldl_nil, Motion.next, total, List.sum_nil]
    abel
  | false =>
    simp only [List.filter_cons, hdrawn, if_true, Bool.not_false, Bool.false_eq_true, if_false, List.filter_nil,
      List.map_cons, List.map_nil, travel, List.foldl_nil, total, List.sum_cons, List.sum_nil]
    abel

/-- **The turtle trails the path by the segments that were suppressed**, wherever it was
before. -/
theorem travel_courseUpTo (points : List P) (place : V) :
    ∀ n (hn : n < points.length), travel read place (courseUpTo plane n points) =
      read points[n] - total read (suppressedUpTo plane n points)
  | 0, hn => by
    obtain ⟨start, rest, rfl⟩ := List.exists_cons_of_length_pos hn
    simp [courseUpTo, suppressedUpTo, travel, total, Motion.next]
  | n + 1, hn => by
    have hbefore := travel_courseUpTo points place n (by omega)
    have hlength : n < (segments points).length := by
      rw [length_segments]
      omega
    have hsegment : (segments points)[n] = (points[n], points[n + 1]) := by
      simp [segments]
    have htake : (segments points).take (n + 1) = (segments points).take n ++ [(points[n], points[n + 1])] := by
      rw [List.take_succ_eq_append_getElem hlength, hsegment]
    -- Up to here the turtle lags behind by what was suppressed; the segment that is added begins
    -- at the point of the path, not at the turtle.
    rw [courseUpTo, htake, List.filter_append, List.map_append, ← List.append_assoc, travel_append]
    rw [courseUpTo] at hbefore
    rw [hbefore, suppressedUpTo, suppressedUpTo, htake, List.filter_append, total_append]
    exact travel_segment read plane (points[n], points[n + 1]) _

/-- What went before makes no difference, since the turtle jumps to where the outline begins. -/
theorem travel_append_courseUpTo {n : Nat} {points : List P} (hn : n < points.length) (before : List (Motion P))
    (place : V) : travel read place (before ++ courseUpTo plane n points) =
      read points[n] - total read (suppressedUpTo plane n points) := by
  rw [travel_append, travel_courseUpTo read plane points _ n hn]

end Travel

/-! ## How far that is -/

theorem abs_total_le {P : Type} {f : P → ℚ} {b : ℚ} {parts : List (P × P)}
    (h : ∀ s ∈ parts, |f s.2 - f s.1| ≤ b) : |total f parts| ≤ parts.length * b := by
  induction parts with
  | nil => simp [total]
  | cons s rest ih =>
    have hs := h s List.mem_cons_self
    have hrest := ih fun s hs => h s (List.mem_cons_of_mem _ hs)
    have hsplit : total f (s :: rest) = f s.2 - f s.1 + total f rest := by
      rw [total, total, List.map_cons, List.sum_cons]
    calc |total f (s :: rest)| ≤ |f s.2 - f s.1| + |total f rest| := by
          rw [hsplit]
          exact abs_add_le _ _
      _ ≤ b + rest.length * b := add_le_add hs hrest
      _ = (s :: rest).length * b := by
          rw [List.length_cons]
          push_cast
          ring

/-- The turtle is not farther from the path than the suppressed segments are long. -/
theorem abs_travel_sub_le {P D : Type} {plane : Plane P D} {read : P → ℚ} {b : ℚ} {n : Nat} {points : List P}
    (hn : n < points.length) (before : List (Motion P)) (place : ℚ)
    (h : ∀ s ∈ suppressedUpTo plane n points, |read s.2 - read s.1| ≤ b) :
    |travel read place (before ++ courseUpTo plane n points) - read points[n]| ≤
      (suppressedUpTo plane n points).length * b := by
  rw [travel_append_courseUpTo read plane hn, sub_sub_cancel_left, abs_neg]
  exact abs_total_le h

/-- Without rounding a segment that is suppressed is at most half a unit long in each
coordinate. -/
theorem abs_le_half_of_not_isDrawn {width height : ℚ} {s : Point ℚ × Point ℚ}
    (h : (Plane.exact width height).isDrawn s = false) : |s.2.x - s.1.x| ≤ 1 / 2 ∧ |s.2.y - s.1.y| ≤ 1 / 2 := by
  have h : Point.distanceSq s.1 s.2 ≤ (1 / 2) ^ 2 := by simpa [Plane.exact] using h
  rw [Point.distanceSq] at h
  constructor
  · refine abs_le_of_sq_le_sq ?_ (by norm_num)
    nlinarith [sq_nonneg (s.2.y - s.1.y)]
  · refine abs_le_of_sq_le_sq ?_ (by norm_num)
    nlinarith [sq_nonneg (s.2.x - s.1.x)]

theorem normal_afterDeadband : Exact.Normal (2 ^ 52 + 1) (-53) :=
  ⟨by norm_num, by decide, by decide, .inl (by norm_num)⟩

open Exact in
theorem deadband_lt {x : Float} (h : Reaches .positive (2 ^ 52 + 1) (-53) x) : deadband < x := by
  obtain ⟨a, ha, hle⟩ := h
  have hdeadband : ofFloat deadband = .finite false (2 ^ 52) (-53) := by decide +kernel
  have hlt : magnitude (2 ^ 52) (-53) < magnitude (2 ^ 52 + 1) (-53) := by
    rw [magnitude, magnitude]
    exact Nat.mul_lt_mul_of_pos_right (by norm_num) (Nat.two_pow_pos _)
  refine lt_iff.2 ⟨signed false (magnitude (2 ^ 52) (-53)), signed false a, by rw [hdeadband, scaled], ha, ?_⟩
  exact Int.ofNat_lt.2 (hlt.trans_le hle)

open Exact in
/-- A root of two squares exceeds the deadband if one of the numbers does so by more than
rounding can take away. -/
theorem deadband_lt_sqrt {x y : Float} {s t : Float.Model.UnpackedFloat.Sign} (hx : Reaches s (2 ^ 52 + 1) (-53) x)
    (hy : Reaches t 0 minExponent y) :
    deadband < Float.sqrt (x * x + y * y) ∧ deadband < Float.sqrt (y * y + x * x) := by
  -- The square of the double after 1/2 is near to the second double after 1/4, whose root is far
  -- enough beyond the middle between 1/2 and the double after it.
  have hsquared : Normal (2 ^ 52 + 2) (-54) := ⟨by norm_num, by decide, by decide, .inl (by norm_num)⟩
  have hxx : Reaches .positive (2 ^ 52 + 2) (-54) (x * x) :=
    hx.mul_self normal_afterDeadband hsquared (.inr ⟨by norm_num, by norm_num⟩)
  have hyy : Reaches .positive 0 minExponent (y * y) := hy.mul_self normal_zero normal_zero (.inl rfl)
  have hroot {z : Float} (hz : Reaches .positive (2 ^ 52 + 2) (-54) z) : deadband < z.sqrt := by
    have hsquare : (1 / 2 + 3 / 2 ^ 55 : ℚ) * (1 / 2 + 3 / 2 ^ 55) ≤ (2 ^ 52 + 2 : Nat) * 2 ^ (-54 : Int) := by norm_num
    exact deadband_lt (hz.sqrt hsquared (by norm_num) normal_afterDeadband hsquare (.inr ⟨by norm_num, by norm_num⟩))
  exact ⟨hroot (hxx.add hyy hsquared normal_zero hsquared (.inr ⟨by norm_num, by norm_num⟩)),
    hroot (hyy.add hxx normal_zero hsquared hsquared (.inr ⟨by norm_num, by norm_num⟩))⟩

/-- The number that a double denotes, if it is finite. -/
def number (x : Float) : ℚ := (Exact.ofFloat x).value?.getD 0

/-- Whether the coordinates of a point are numbers. -/
def isFinitePoint (p : Point Float) : Bool := (Exact.ofFloat p.x).isFinite && (Exact.ofFloat p.y).isFinite

theorem value?_eq_number {x : Float} (h : (Exact.ofFloat x).isFinite = true) :
    (Exact.ofFloat x).value? = some (number x) := by
  obtain ⟨v, hv⟩ := Exact.exists_value? h
  rw [number, hv, Option.getD_some]

/-- With rounding the bound is greater by half a unit in the last place of the deadband. -/
theorem abs_le_of_not_isDrawn {s : Point Float × Point Float} (hdrawn : isDrawn s = false)
    (hfirst : isFinitePoint s.1 = true) (hsecond : isFinitePoint s.2 = true) :
    |number s.2.x - number s.1.x| ≤ 1 / 2 + 1 / 2 ^ 54 ∧ |number s.2.y - number s.1.y| ≤ 1 / 2 + 1 / 2 ^ 54 := by
  rw [isFinitePoint, Bool.and_eq_true] at hfirst hsecond
  have hx := value?_eq_number hfirst.1
  have hy := value?_eq_number hfirst.2
  have hx' := value?_eq_number hsecond.1
  have hy' := value?_eq_number hsecond.2
  have hnear {d : ℚ} (h : ¬ d ≤ 1 / 2 + 1 / 2 ^ 54) : Exact.IsNear (2 ^ 52 + 1) (-53) d :=
    .inr ⟨by norm_num, lt_of_eq_of_lt (by norm_num) (not_le.1 h)⟩
  have hnot : ¬ deadband < Point.distance s.1 s.2 := of_decide_eq_false hdrawn
  constructor
  · by_contra h
    obtain ⟨_, hdx⟩ := Exact.exists_reaches_sub hx' hx normal_afterDeadband (hnear h)
    obtain ⟨_, hdy⟩ := Exact.exists_reaches_sub hy' hy Exact.normal_zero (.inl rfl)
    exact hnot (deadband_lt_sqrt hdx hdy).1
  · by_contra h
    obtain ⟨_, hdx⟩ := Exact.exists_reaches_sub hx' hx Exact.normal_zero (.inl rfl)
    obtain ⟨_, hdy⟩ := Exact.exists_reaches_sub hy' hy normal_afterDeadband (hnear h)
    exact hnot (deadband_lt_sqrt hdy hdx).2

/-- The greater bound is reached. -/
example : isDrawn (⟨-5.551115123125783e-17, 0⟩, ⟨0.5, 0⟩) = false ∧
    number 0.5 - number (-5.551115123125783e-17) = 1 / 2 + 1 / 2 ^ 54 := by decide +kernel

theorem mem_of_mem_segments {P : Type} {points : List P} {s : P × P} (h : s ∈ segments points) :
    s.1 ∈ points ∧ s.2 ∈ points := by
  obtain ⟨h1, h2⟩ := List.of_mem_zip h
  exact ⟨h1, List.mem_of_mem_tail h2⟩

theorem mem_suppressedUpTo {P D : Type} {plane : Plane P D} {n : Nat} {points : List P} {s : P × P}
    (h : s ∈ suppressedUpTo plane n points) : s ∈ segments points ∧ plane.isDrawn s = false := by
  obtain ⟨hmem, hnot⟩ := List.mem_filter.1 h
  exact ⟨List.mem_of_mem_take hmem, by simpa using hnot⟩

/-! ## Programs -/

theorem course_eq {P D : Type} (plane : Plane P D) (points : List P) :
    course plane points =
      (points.take 1).map .jump ++ ((segments points).filter plane.isDrawn).map fun s => .draw s.1 s.2 := by
  have hall : (segments points).take points.length = segments points := by
    refine List.take_of_length_le ?_
    rw [length_segments]
    exact Nat.sub_le _ _
  rw [course, courseUpTo, hall]

/-- The moves that a stroke is drawn with. -/
def strokeCourse (options : Options) (stroke : Stroke) : List (Motion (Point Float)) :=
  course (Plane.doubles options) ((Plane.doubles options).outline options.tolerance.value stroke.points.value)

theorem strokeCourse_eq (options : Options) (stroke : Stroke) :
    strokeCourse options stroke = course (Plane.doubles options) (outline options stroke) := rfl

theorem filter_isMove_penOps (pen : Pen) (stroke : Stroke) : (penOps pen stroke).filter Operation.isMove = [] := by
  refine List.filter_eq_nil_iff.2 fun op hop => ?_
  rcases mem_penOps hop with rfl | rfl
  · exact Bool.false_ne_true
  · exact Bool.false_ne_true

theorem filter_isMove_strokeOps {options : Options} {stroke : Stroke} {start : Point Float}
    {others : List (Point Float)} (pen : Pen) (h : outline options stroke = start :: others) :
    (strokeOps pen stroke start (outline options stroke)).filter Operation.isMove =
      (strokeCourse options stroke).flatMap Motion.ops := by
  have hsegments := List.filter_eq_self.2 fun op =>
    @isMove_of_mem_segmentOps ((segments (outline options stroke)).filter isDrawn) op
  rw [strokeOps_eq, strokeCourse_eq, course_eq, List.flatMap_append, List.flatMap_map, List.flatMap_map]
  simp only [List.filter_append, filter_isMove_penOps, hsegments]
  rw [h]
  exact List.append_nil _

theorem filter_isMove_planItems (options : Options) (progress : Progress) (items : List Item) :
    (planItems options progress items).1.filter Operation.isMove =
      ((items.filterMap Item.drawn?).flatMap (strokeCourse options)).flatMap Motion.ops := by
  induction items generalizing progress with
  | nil => rfl
  | cons item rest ih =>
    rw [planItems, List.filter_append, ih, filterMap_drawn?_cons, List.flatMap_append, List.flatMap_append]
    congr 1
    cases item with
    | layer name => rfl
    | stroke stroke =>
      cases hdrawable : isDrawable stroke with
      | false =>
        rw [planItem, planStroke_of_not options progress hdrawable, Item.drawn?, hdrawable]
        rfl
      | true =>
        obtain ⟨_, _, _, _, _, houtline⟩ := exists_outline_eq options hdrawable
        rw [planItem, (planStroke_of_outline progress houtline).1, filter_isMove_strokeOps _ houtline, Item.drawn?,
          if_pos hdrawable, Option.toList_some, List.flatMap_singleton]

/-- The moves of a program are those of the strokes that it draws, one stroke after the
other. -/
theorem filter_isMove_plan (options : Options) (strokes : List Stroke) (layers : List Layer) :
    (plan options strokes layers).program.filter Operation.isMove =
      ((drawn strokes layers).flatMap fun part => strokeCourse options part.2).flatMap Motion.ops := by
  rw [program_plan, List.filter_append, List.filter_append, filter_isMove_planItems, filterMap_drawn?_paintOrder,
    List.flatMap_map]
  exact List.append_nil _

theorem courseUpTo_begins {P D : Type} (plane : Plane P D) (n : Nat) (points : List P) :
    courseUpTo plane n points <+: course plane points := by
  rw [course_eq, courseUpTo, List.prefix_append_right_inj]
  exact ((List.take_prefix n _).filter _).map _

/-- The moves that lead the turtle to a point of a stroke: those of the strokes before, and
those along its first segments. -/
def approach (options : Options) (earlier : List (Layer × Stroke)) (stroke : Stroke) (n : Nat) :
    List (Motion (Point Float)) :=
  (earlier.flatMap fun part => strokeCourse options part.2) ++
    courseUpTo (Plane.doubles options) n
      ((Plane.doubles options).outline options.tolerance.value stroke.points.value)

theorem approach_begins {options : Options} {strokes : List Stroke} {layers : List Layer}
    {earlier later : List (Layer × Stroke)} {layer : Layer} {stroke : Stroke}
    (h : drawn strokes layers = earlier ++ (layer, stroke) :: later) (n : Nat) :
    (approach options earlier stroke n).flatMap Motion.ops <+:
      (plan options strokes layers).program.filter Operation.isMove := by
  obtain ⟨rest, hrest⟩ := courseUpTo_begins (Plane.doubles options) n
    ((Plane.doubles options).outline options.tolerance.value stroke.points.value)
  have hmotions : (drawn strokes layers).flatMap (fun part => strokeCourse options part.2) =
      approach options earlier stroke n ++ (rest ++ later.flatMap fun part => strokeCourse options part.2) := by
    rw [h, List.flatMap_append, List.flatMap_cons, approach, strokeCourse, ← hrest, List.append_assoc,
      List.append_assoc]
  rw [filter_isMove_plan, hmotions, List.flatMap_append]
  exact List.prefix_append _ _

/-- **The turtle trails the path by what was suppressed of the stroke**, and by nothing that
was suppressed before. With rounding and without, that is bounded by how much was suppressed. -/
theorem plan_trails (options : Options) (strokes : List Stroke) (layers : List Layer) :
    (plan options strokes layers).program.filter Operation.isMove =
        ((drawn strokes layers).flatMap fun part => strokeCourse options part.2).flatMap Motion.ops ∧
      (∀ earlier layer stroke later, drawn strokes layers = earlier ++ (layer, stroke) :: later →
        let plane := Plane.doubles options
        let path := plane.outline options.tolerance.value stroke.points.value
        ∀ n (hn : n < path.length),
          (approach options earlier stroke n).flatMap Motion.ops <+:
              (plan options strokes layers).program.filter Operation.isMove ∧
            (∀ {V : Type} [AddCommGroup V] (read : Point Float → V) (place : V),
              travel read place (approach options earlier stroke n) =
                read path[n] - total read (suppressedUpTo plane n path)) ∧
            (path.all isFinitePoint → ∀ coordinate ∈ [Point.x, Point.y], ∀ place : ℚ,
              |travel (fun p => number (coordinate p)) place (approach options earlier stroke n) -
                  number (coordinate path[n])| ≤
                (suppressedUpTo plane n path).length * (1 / 2 + 1 / 2 ^ 54))) ∧
      ∀ (width height tolerance : ℚ) (points : List (Point ℚ)) (before : List (Motion (Point ℚ))),
        let plane := Plane.exact width height
        let path := plane.outline tolerance points
        ∀ n (hn : n < path.length), ∀ coordinate ∈ [Point.x, Point.y], ∀ place : ℚ,
          travel coordinate place (before ++ courseUpTo plane n path) =
              coordinate path[n] - total coordinate (suppressedUpTo plane n path) ∧
            |travel coordinate place (before ++ courseUpTo plane n path) - coordinate path[n]| ≤
              (suppressedUpTo plane n path).length * (1 / 2) := by
  refine ⟨filter_isMove_plan options strokes layers, ?doubles, ?exact⟩
  case doubles =>
    intro earlier layer stroke later hdrawn plane path n hn
    refine ⟨approach_begins hdrawn n, fun read place => travel_append_courseUpTo read plane hn _ place, ?_⟩
    intro hfinite coordinate hcoordinate place
    refine abs_travel_sub_le hn _ place fun s hs => ?_
    obtain ⟨hs, hnot⟩ := mem_suppressedUpTo hs
    obtain ⟨hfirst, hsecond⟩ := mem_of_mem_segments hs
    have hle := abs_le_of_not_isDrawn hnot (List.all_eq_true.1 hfinite _ hfirst) (List.all_eq_true.1 hfinite _ hsecond)
    simp only [List.mem_cons, List.not_mem_nil, or_false] at hcoordinate
    rcases hcoordinate with rfl | rfl
    · exact hle.1
    · exact hle.2
  case exact =>
    intro width height tolerance points before plane path n hn coordinate hcoordinate place
    refine ⟨travel_append_courseUpTo coordinate plane hn before place, abs_travel_sub_le hn before place fun s hs => ?_⟩
    have hle := abs_le_half_of_not_isDrawn (mem_suppressedUpTo hs).2
    simp only [List.mem_cons, List.not_mem_nil, or_false] at hcoordinate
    rcases hcoordinate with rfl | rfl
    · exact hle.1
    · exact hle.2

/-- A quarter of a unit to the right, and ten units up. -/
def corner : Stroke := ⟨"a", "under", "#ff0000", 2, .of 6, .of [⟨400, 300⟩, ⟨400.25, 300⟩, ⟨400.25, 290⟩], true⟩

def cornerOptions : Options := ⟨800, 600, 6, .of "#0a0a0a", .of 0⟩

/-- Drawn twice, the corner is trailed by a quarter of a unit both times. -/
theorem plan_trails_corner :
    drawn [corner, corner] [⟨"under", "Under", .of true, true⟩] =
        [(⟨"under", "Under", .of true, true⟩, corner)] ++ (⟨"under", "Under", .of true, true⟩, corner) :: [] ∧
      (Plane.doubles cornerOptions).outline cornerOptions.tolerance.value corner.points.value =
        [⟨0, 0⟩, ⟨0.25, 0⟩, ⟨0.25, 10⟩] ∧
      let moves := approach cornerOptions [(⟨"under", "Under", .of true, true⟩, corner)] corner 2
      |travel (fun p => number p.x) 0 moves - 1 / 4| ≤ 1 / 2 + 1 / 2 ^ 54 ∧
        travel (fun p => number p.x) 0 moves = 0 := by
  have hdrawn : drawn [corner, corner] [⟨"under", "Under", .of true, true⟩] =
      [(⟨"under", "Under", .of true, true⟩, corner)] ++ (⟨"under", "Under", .of true, true⟩, corner) :: [] := rfl
  have hpath : (Plane.doubles cornerOptions).outline cornerOptions.tolerance.value corner.points.value =
      [⟨0, 0⟩, ⟨0.25, 0⟩, ⟨0.25, 10⟩] := by decide +kernel
  have hsuppressed : suppressedUpTo (Plane.doubles cornerOptions) 2 [⟨0, 0⟩, ⟨0.25, 0⟩, ⟨0.25, 10⟩] =
      [(⟨0, 0⟩, ⟨0.25, 0⟩)] := by decide +kernel
  have hquarter : number 0.25 = 1 / 4 := by decide +kernel
  have hzero : number 0 = 0 := by decide +kernel
  have hfinite : List.all [⟨0, 0⟩, ⟨0.25, 0⟩, ⟨0.25, 10⟩] isFinitePoint = true := by decide +kernel
  have htrails := (plan_trails cornerOptions [corner, corner] [⟨"under", "Under", .of true, true⟩]).2.1 _ _ _ _ hdrawn 2
  simp only [hpath] at htrails
  obtain ⟨-, hplace, hnear⟩ := htrails (by decide)
  have hplace := hplace (fun p => number p.x) 0
  have hnear := hnear hfinite Point.x List.mem_cons_self 0
  simp only [hsuppressed, total, List.map_cons, List.map_nil, List.sum_cons, List.sum_nil, List.getElem_cons_succ,
    List.getElem_cons_zero, List.length_cons, List.length_nil, hquarter, hzero] at hplace hnear
  exact ⟨hdrawn, hpath, hnear.trans (by norm_num), hplace.trans (by norm_num)⟩

end SketchTurtle.Turtle
