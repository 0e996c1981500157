/-
The tally of a plan balances against its program.

Four numbers are kept in different places of the loops over layers and strokes. `Accounts` says what
each of them owes to the items that were met and to the operations that were emitted. It holds of an
item on its own (`accounts_planItem`), and accounts of one item after another add up
(`Accounts.append`), so it holds of a whole plan (`plan_accounts`).
-/
import SketchTurtle.Proofs.Turtle.PaintOrder
import Mathlib.Algebra.Ring.Nat

namespace SketchTurtle.Turtle

/-! ## Counting -/

namespace Program

theorem count_append (kind : Kind) (program more : Program) :
    count kind (program ++ more) = count kind program + count kind more :=
  List.countP_append

theorem count_eq_zero {kind : Kind} {program : Program} (h : ∀ op ∈ program, op.kind ≠ kind) : count kind program = 0 :=
  List.countP_eq_zero.2 fun op hop => by simpa using h op hop

end Program

/-- The segments that a stroke has once it is simplified. -/
def legs (options : Options) (stroke : Stroke) : Nat :=
  (Polyline.simplify deviation options.tolerance.value stroke.points.value).length - 1

theorem length_segments {P : Type} (points : List P) : (segments points).length = points.length - 1 := by
  rw [segments, List.length_zip, List.length_tail]
  omega

theorem length_segments_outline (options : Options) (stroke : Stroke) :
    (segments (outline options stroke)).length = legs options stroke := by
  rw [length_segments, outline, List.length_map, legs]

/-- A segment is drawn, which takes one move, or it is suppressed. -/
theorem count_forward_segments (parts : List (Point Float × Point Float)) :
    Program.count .forward ((parts.filter isDrawn).flatMap segmentOps) + (parts.filter (!isDrawn ·)).length =
      parts.length := by
  induction parts with
  | nil => rfl
  | cons s rest ih =>
    cases hdrawn : isDrawn s with
    | false =>
      simp only [List.filter_cons, hdrawn, Bool.not_false, if_true, Bool.false_eq_true, if_false, List.length_cons]
      omega
    | true =>
      have hone : Program.count .forward (segmentOps s) = 1 := rfl
      simp only [List.filter_cons, hdrawn, Bool.not_true, if_true, Bool.false_eq_true, if_false, List.flatMap_cons,
        Program.count_append, hone, List.length_cons]
      omega

theorem count_penOps (kind : Kind) (hcolor : kind ≠ .penColor) (hsize : kind ≠ .penSize) (pen : Pen) (stroke : Stroke) :
    Program.count kind (penOps pen stroke) = 0 := by
  refine Program.count_eq_zero fun op hop => ?_
  rcases mem_penOps hop with rfl | rfl
  · exact hcolor.symm
  · exact hsize.symm

theorem count_segmentOps (kind : Kind) (hheading : kind ≠ .setHeading) (hforward : kind ≠ .forward)
    (parts : List (Point Float × Point Float)) : Program.count kind (parts.flatMap segmentOps) = 0 := by
  refine Program.count_eq_zero fun op hop => ?_
  obtain ⟨s, rfl | rfl⟩ := mem_segmentOps hop
  · exact hheading.symm
  · exact hforward.symm

/-- What a stroke adds to the operations of a kind that sets no pen: those at its ends, and those
along its segments. -/
theorem count_strokeOps (kind : Kind) (hcolor : kind ≠ .penColor) (hsize : kind ≠ .penSize) (pen : Pen)
    (stroke : Stroke) (start : Point Float) (points : List (Point Float)) :
    Program.count kind (strokeOps pen stroke start points) =
      Program.count kind [.penUp, .goTo start.x start.y, .penDown, .blank] +
        Program.count kind (((segments points).filter isDrawn).flatMap segmentOps) := by
  have hends : Program.count kind [.penUp, .goTo start.x start.y, .penDown, .blank] =
      Program.count kind [.penUp, .goTo start.x start.y] + Program.count kind [.penDown] +
        Program.count kind [.blank] := by
    rw [← Program.count_append, ← Program.count_append]
    rfl
  rw [strokeOps_eq, hends]
  simp only [Program.count_append, count_penOps kind hcolor hsize]
  omega

/-! ## Accounts -/

/-- The stroke that an item is. -/
def Item.stroke? : Item → Option Stroke
  | .layer _ => none
  | .stroke s => some s

/-- What the tally has come to, after items were met and operations emitted. -/
structure Accounts (options : Options) (before : Tally) (items : List Item) (ops : Program) (after : Tally) : Prop where
  /-- Each layer has its comment. -/
  layers : after.layers = before.layers + ops.count .comment
  /-- Each stroke lifts the pen once. -/
  lifts : after.strokes = before.strokes + ops.count .penUp
  /-- The strokes are those that items draw. -/
  strokes : after.strokes = before.strokes + (items.filterMap Item.drawn?).length
  /-- A stroke is drawn or skipped. -/
  met : after.strokes + after.skipped = before.strokes + before.skipped + (items.filterMap Item.stroke?).length
  /-- A segment of a stroke that is drawn is drawn or suppressed. -/
  segments : ops.count .forward + after.suppressed =
    before.suppressed + ((items.filterMap Item.drawn?).map (legs options)).sum

namespace Accounts

variable {options : Options}

theorem refl (tally : Tally) : Accounts options tally [] [] tally := ⟨rfl, rfl, rfl, rfl, Nat.add_comm _ _⟩

/-- Accounts add up. -/
theorem append {before between after : Tally} {items more : List Item} {ops rest : Program}
    (h : Accounts options before items ops between) (hmore : Accounts options between more rest after) :
    Accounts options before (items ++ more) (ops ++ rest) after := by
  obtain ⟨hlayers, hlifts, hstrokes, hmet, hsegments⟩ := h
  obtain ⟨hlayers', hlifts', hstrokes', hmet', hsegments'⟩ := hmore
  constructor
  case layers =>
    rw [Program.count_append]
    omega
  case lifts =>
    rw [Program.count_append]
    omega
  case strokes =>
    rw [List.filterMap_append, List.length_append]
    omega
  case met =>
    rw [List.filterMap_append, List.length_append]
    omega
  case segments =>
    rw [Program.count_append, List.filterMap_append, List.map_append, List.sum_append]
    omega

end Accounts

variable (options : Options)

theorem tally_planStroke_of_outline {options : Options} (progress : Progress) {stroke : Stroke}
    {start second : Point Float} {others : List (Point Float)}
    (h : outline options stroke = start :: second :: others) :
    (planStroke options progress stroke).2.tally =
      { progress.tally with
        strokes := progress.tally.strokes + 1
        suppressed := progress.tally.suppressed +
          ((segments (outline options stroke)).filter (!isDrawn ·)).length } := by
  rw [planStroke, h]

/-- Planning one item keeps its accounts: the name of a layer is commented, and a stroke is skipped
or drawn. -/
theorem accounts_planItem (progress : Progress) (item : Item) :
    Accounts options progress.tally [item] (planItem options progress item).1
      (planItem options progress item).2.tally := by
  cases item with
  | layer name => exact ⟨rfl, rfl, rfl, rfl, Nat.add_comm _ _⟩
  | stroke stroke =>
    cases hdrawable : isDrawable stroke with
    | false =>
      have hdrawn : [Item.stroke stroke].filterMap Item.drawn? = [] := by simp [Item.drawn?, hdrawable]
      rw [planItem, planStroke_of_not options progress hdrawable]
      exact ⟨rfl, rfl, by rw [hdrawn]; rfl, rfl, by rw [hdrawn]; exact Nat.add_comm _ _⟩
    | true =>
      have hdrawn : [Item.stroke stroke].filterMap Item.drawn? = [stroke] := by simp [Item.drawn?, hdrawable]
      obtain ⟨_, _, _, _, _, houtline⟩ := exists_outline_eq options hdrawable
      have hsegments := count_forward_segments (segments (outline options stroke))
      rw [length_segments_outline] at hsegments
      rw [planItem, (planStroke_of_outline progress houtline).1, tally_planStroke_of_outline progress houtline]
      refine ⟨?layers, ?lifts, ?strokes, ?met, ?segments⟩
      case layers =>
        rw [count_strokeOps .comment (by decide) (by decide), count_segmentOps .comment (by decide) (by decide)]
        rfl
      case lifts =>
        rw [count_strokeOps .penUp (by decide) (by decide), count_segmentOps .penUp (by decide) (by decide)]
        rfl
      case strokes => rw [hdrawn]; rfl
      case met => exact Nat.add_right_comm _ _ _
      case segments =>
        rw [count_strokeOps .forward (by decide) (by decide), hdrawn, List.map_singleton, List.sum_singleton,
          ← hsegments]
        show 0 + _ + (_ + _) = _
        omega

theorem accounts_planItems (progress : Progress) (items : List Item) :
    Accounts options progress.tally items (planItems options progress items).1
      (planItems options progress items).2.tally := by
  induction items generalizing progress with
  | nil => exact .refl _
  | cons item rest ih => exact (accounts_planItem options progress item).append (ih _)

/-! ## Plans -/

/-- The pairs of a visible layer and a stroke on it. -/
def visiblePairs (strokes : List Stroke) (layers : List Layer) : List (Layer × Stroke) :=
  (layers ×ˢ strokes).filter fun pair => pair.1.visible.value && pair.2.layer == pair.1.id

theorem visiblePairs_cons (strokes : List Stroke) (layer : Layer) (layers : List Layer) :
    visiblePairs strokes (layer :: layers) =
      (if layer.visible.value then (strokes.filter (·.layer == layer.id)).map (layer, ·) else []) ++
        visiblePairs strokes layers := by
  rw [visiblePairs, List.product_cons, List.filter_append, List.filter_map]
  cases h : layer.visible.value with
  | false => simp [visiblePairs, Function.comp_def, h]
  | true => simp [visiblePairs, Function.comp_def, h]

theorem filterMap_stroke?_layerItems (strokes : List Stroke) (layer : Layer) :
    (layerItems strokes layer).filterMap Item.stroke? =
      if layer.visible.value then strokes.filter (·.layer == layer.id) else [] := by
  have hall (own : List Stroke) : (own.map Item.stroke).filterMap Item.stroke? = own := by
    rw [List.filterMap_map]
    exact List.filterMap_some
  rw [layerItems]
  cases layer.visible.value with
  | false => rfl
  | true =>
    cases hempty : (strokes.filter (·.layer == layer.id)).isEmpty with
    | true => exact (List.isEmpty_iff.1 hempty).symm
    | false => exact hall _

/-- The strokes that planning meets are those of visible layers. -/
theorem filterMap_stroke?_paintOrder (strokes : List Stroke) (layers : List Layer) :
    (paintOrder strokes layers).filterMap Item.stroke? = (visiblePairs strokes layers).map (·.2) := by
  induction layers with
  | nil => rfl
  | cons layer rest ih =>
    rw [paintOrder_cons, List.filterMap_append, ih, filterMap_stroke?_layerItems, visiblePairs_cons, List.map_append]
    split
    · simp [Function.comp_def]
    · rfl

theorem tally_plan (strokes : List Stroke) (layers : List Layer) :
    (plan options strokes layers).tally = (planItems options .start (paintOrder strokes layers)).2.tally :=
  congrArg (·.2.tally) (planLayers_eq_planItems options strokes .start layers)

theorem count_plan (strokes : List Stroke) (layers : List Layer) (kind : Kind) :
    (plan options strokes layers).program.count kind =
      Program.count kind (header options) +
        Program.count kind (planItems options .start (paintOrder strokes layers)).1 + Program.count kind footer := by
  rw [program_plan, Program.count_append, Program.count_append]

/-- **The tally of a plan balances against its program.** A stroke on a visible layer is drawn or
skipped, and one that is drawn lifts the pen once. A layer has its comment, besides those of the
header and the footer. A segment of a simplified stroke takes one move or is suppressed. -/
theorem plan_accounts (strokes : List Stroke) (layers : List Layer) :
    (plan options strokes layers).tally.strokes + (plan options strokes layers).tally.skipped =
        (visiblePairs strokes layers).length ∧
      (plan options strokes layers).tally.strokes = (drawn strokes layers).length ∧
      (plan options strokes layers).tally.strokes = (plan options strokes layers).program.count .penUp ∧
      (plan options strokes layers).program.count .comment = (plan options strokes layers).tally.layers + 2 ∧
      (plan options strokes layers).program.count .forward + (plan options strokes layers).tally.suppressed =
        ((drawn strokes layers).map fun part =>
          (Polyline.simplify deviation options.tolerance.value part.2.points.value).length - 1).sum := by
  obtain ⟨hlayers, hlifts, hstrokes, hmet, hsegments⟩ := accounts_planItems options .start (paintOrder strokes layers)
  rw [filterMap_drawn?_paintOrder] at hstrokes hsegments
  rw [filterMap_stroke?_paintOrder] at hmet
  have hstart : Progress.start.tally = ⟨0, 0, 0, 0⟩ := rfl
  simp only [hstart, Nat.zero_add, List.length_map, List.map_map] at hlayers hlifts hstrokes hmet hsegments
  have hcomments : Program.count .comment (header options) = 1 ∧ Program.count .comment footer = 1 := ⟨rfl, rfl⟩
  have hlift : Program.count .penUp (header options) = 0 ∧ Program.count .penUp footer = 0 := ⟨rfl, rfl⟩
  have hmoves : Program.count .forward (header options) = 0 ∧ Program.count .forward footer = 0 := ⟨rfl, rfl⟩
  rw [tally_plan, count_plan, count_plan, count_plan, hcomments.1, hcomments.2, hlift.1, hlift.2, hmoves.1, hmoves.2]
  refine ⟨hmet, hstrokes, ?lifts, ?comments, ?segments⟩
  case lifts => omega
  case comments => omega
  case segments =>
    rw [Nat.zero_add, Nat.add_zero, hsegments]
    rfl

end SketchTurtle.Turtle
