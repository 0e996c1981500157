/-
The parts of a program that draw strokes, found again.

Splitting a program knows nothing of layers: a part begins where the pen is
lifted and ends before a blank line. Of what planning emits, only drawn
strokes lift the pen, and each ends in its one blank line, so splitting finds
exactly the strokes that are drawn (`strokes_plan`).
-/
import SketchTurtle.Proofs.Turtle.PaintOrder
import Mathlib.Data.List.Perm.Subperm
import Mathlib.Data.List.Forall2

namespace SketchTurtle.Turtle

/-! ## Splitting -/

/-- Whether an operation neither begins nor ends a part. -/
def Operation.isInner (op : Operation) : Bool := op.kind != .penUp && op.kind != .blank

namespace Program

theorem strokesFrom_inner (ops rest : Program) (current : List Operation)
    (h : ∀ op ∈ ops, op.isInner = true) :
    strokesFrom (some current) (ops ++ rest) = strokesFrom (some (ops.reverse ++ current)) rest := by
  induction ops generalizing current with
  | nil => rfl
  | cons op ops ih =>
    have hstep : strokesFrom (some current) (op :: (ops ++ rest)) =
        strokesFrom (some (op :: current)) (ops ++ rest) := by
      have hop := h op List.mem_cons_self
      cases op <;> first | rfl | cases hop
    rw [List.cons_append, hstep, ih _ fun op hop => h op (List.mem_cons_of_mem _ hop)]
    simp

/-- A part is found whole, and the search goes on after its blank line. -/
theorem strokesFrom_part (ops rest : Program) (h : ∀ op ∈ ops, op.isInner = true) :
    strokesFrom none (.penUp :: ops ++ .blank :: rest) = (.penUp :: ops) :: strokesFrom none rest := by
  show strokesFrom (some [.penUp]) (ops ++ .blank :: rest) = _
  rw [strokesFrom_inner ops _ _ h, strokesFrom]
  simp

end Program

/-! ## Parts -/

/-- The part draws the stroke: it lifts the pen and goes to the stroke's first
point, sets at most the stroke's colour and width, and then draws, with the pen
down, the segments of the simplified stroke that are longer than the deadband. -/
def Draws (options : Options) (stroke : Stroke) (part : Program) : Prop :=
  ∃ first rest set,
    stroke.points.value = first :: rest ∧
      List.Sublist set [.penColor stroke.color, .penSize stroke.width] ∧
      part = .penUp :: .goTo (first.toTurtle options.width options.height).x
          (first.toTurtle options.width options.height).y :: set ++
        .penDown :: ((segments (outline options stroke)).filter isDrawn).flatMap segmentOps

theorem isInner_of_mem_segmentOps {parts : List (Point Float × Point Float)} {op : Operation}
    (h : op ∈ parts.flatMap segmentOps) : op.isInner = true := by
  obtain ⟨s, rfl | rfl⟩ := mem_segmentOps h
  · rfl
  · rfl

theorem isInner_of_mem_penOps {pen : Pen} {stroke : Stroke} {op : Operation}
    (h : op ∈ penOps pen stroke) : op.isInner = true := by
  rcases mem_penOps h with rfl | rfl
  · rfl
  · rfl

/-- Splitting finds in a planned item the part of the stroke that it draws. -/
theorem strokesFrom_planItem (options : Options) (progress : Progress) (item : Item) (rest : Program) :
    ∃ parts, Program.strokesFrom none ((planItem options progress item).1 ++ rest) =
        parts ++ Program.strokesFrom none rest ∧
      List.Forall₂ (Draws options) item.drawn?.toList parts := by
  cases item with
  | layer name => exact ⟨[], rfl, .nil⟩
  | stroke stroke =>
    cases hdrawable : isDrawable stroke with
    | false =>
      refine ⟨[], ?_, ?_⟩
      · rw [planItem, planStroke_of_not options progress hdrawable]
        rfl
      · rw [Item.drawn?, hdrawable]
        exact .nil
    | true =>
      obtain ⟨first, others, _, _, hpoints, houtline⟩ := exists_outline_eq options hdrawable
      let start := first.toTurtle options.width options.height
      let ops := .goTo start.x start.y :: penOps progress.pen stroke ++
        .penDown :: ((segments (outline options stroke)).filter isDrawn).flatMap segmentOps
      have hops : (planItem options progress (.stroke stroke)).1 = .penUp :: ops ++ [.blank] := by
        rw [planItem, (planStroke_of_outline progress houtline).1]
        rfl
      have hinner : ∀ op ∈ ops, op.isInner = true := by
        intro op hop
        rcases List.mem_append.1 hop with hop | hop
        · rcases List.mem_cons.1 hop with rfl | hop
          · rfl
          · exact isInner_of_mem_penOps hop
        · rcases List.mem_cons.1 hop with rfl | hop
          · rfl
          · exact isInner_of_mem_segmentOps hop
      refine ⟨[.penUp :: ops], ?_, ?_⟩
      · rw [hops, List.append_assoc]
        exact Program.strokesFrom_part ops rest hinner
      · rw [Item.drawn?, if_pos hdrawable]
        exact .cons ⟨first, others, penOps progress.pen stroke, hpoints, penOps_sublist _ _, rfl⟩ .nil

theorem strokesFrom_planItems (options : Options) (progress : Progress) (items : List Item)
    (rest : Program) :
    ∃ parts, Program.strokesFrom none ((planItems options progress items).1 ++ rest) =
        parts ++ Program.strokesFrom none rest ∧
      List.Forall₂ (Draws options) (items.filterMap Item.drawn?) parts := by
  induction items generalizing progress with
  | nil => exact ⟨[], rfl, .nil⟩
  | cons item more ih =>
    obtain ⟨parts, hparts, hdraws⟩ := ih (planItem options progress item).2
    obtain ⟨part, hpart, hdraw⟩ := strokesFrom_planItem options progress item
      ((planItems options (planItem options progress item).2 more).1 ++ rest)
    refine ⟨part ++ parts, ?_, ?_⟩
    · rw [planItems, List.append_assoc, hpart, hparts, List.append_assoc]
    · rw [filterMap_drawn?_cons]
      exact List.rel_append hdraw hdraws

/-! ## At most once -/

/-- Layers of distinct identifiers draw each stroke on their list at most once. -/
theorem subperm_drawn (strokes : List Stroke) {layers : List Layer} (h : (layers.map (·.id)).Nodup) :
    ((drawn strokes layers).map (·.2)).Subperm strokes := by
  induction layers with
  | nil => exact List.nil_subperm
  | cons layer rest ih =>
    obtain ⟨hlayer, hrest⟩ := List.nodup_cons.1 h
    let isOwn := fun stroke : Stroke => stroke.layer == layer.id
    have hown : ((if layer.visible.value then
        (strokes.filter fun stroke => stroke.layer == layer.id && isDrawable stroke).map (layer, ·)
        else []).map (·.2)).Sublist (strokes.filter isOwn) := by
      split
      · rw [List.map_map]
        show (List.map id _).Sublist _
        rw [List.map_id]
        exact List.monotone_filter_right strokes fun stroke hs => (Bool.and_eq_true_iff.1 hs).1
      · exact List.nil_sublist _
    -- What the other layers draw is not on this one.
    have hothers : ((drawn strokes rest).map (·.2)).filter (!isOwn ·) = (drawn strokes rest).map (·.2) := by
      refine List.filter_eq_self.2 fun stroke hs => ?_
      obtain ⟨⟨other, _⟩, hpart, rfl⟩ := List.mem_map.1 hs
      simp only [drawn, List.mem_filter, List.mem_product, Bool.and_eq_true, beq_iff_eq] at hpart
      obtain ⟨⟨hother, -⟩, ⟨-, hon⟩, -⟩ := hpart
      have hne : other.id ≠ layer.id := fun heq => hlayer (List.mem_map.2 ⟨other, hother, heq⟩)
      simpa [isOwn, hon] using hne
    have hthose := (ih hrest).filter (!isOwn ·)
    rw [hothers] at hthose
    rw [drawn_cons, List.map_append]
    exact (hown.subperm.append hthose).trans (List.filter_append_perm isOwn strokes).subperm

/-- **Splitting a plan finds the strokes that it draws**, each once for every
visible layer that it is on, and in that order. -/
theorem strokes_plan (options : Options) (strokes : List Stroke) (layers : List Layer) :
    List.Forall₂ (fun part ops => Draws options part.2 ops) (drawn strokes layers)
        (plan options strokes layers).program.strokes ∧
      ((layers.map (·.id)).Nodup → ((drawn strokes layers).map (·.2)).Subperm strokes) := by
  constructor
  · obtain ⟨parts, hparts, hdraws⟩ :=
      strokesFrom_planItems options .start (paintOrder strokes layers) footer
    rw [filterMap_drawn?_paintOrder, List.forall₂_map_left_iff] at hdraws
    have hstrokes : (plan options strokes layers).program.strokes = parts := by
      rw [program_plan, List.append_assoc]
      show Program.strokesFrom none ((planItems options .start (paintOrder strokes layers)).1 ++ footer) = _
      rw [hparts]
      exact List.append_nil parts
    rw [hstrokes]
    exact hdraws
  · exact subperm_drawn strokes

theorem strokes_plan_sample :
    (sampleLayers.map (·.id)).Nodup ∧
      ((drawn sampleStrokes sampleLayers).map (·.2)).Subperm sampleStrokes ∧
      (drawn sampleStrokes sampleLayers).map (·.2.id) = ["a", "d"] ∧
      (plan sampleOptions sampleStrokes sampleLayers).program.strokes.length = 2 := by
  have hdistinct : (sampleLayers.map (·.id)).Nodup := by decide
  have hplan := strokes_plan sampleOptions sampleStrokes sampleLayers
  exact ⟨hdistinct, hplan.2 hdistinct, by decide +kernel, by decide +kernel⟩

end SketchTurtle.Turtle
