/-
What a plan shows.

Of a stroke only its colour, its width and its points are drawn, and of a layer
only its name is written, if it is visible and has strokes. Two sketches that
show the same in paint order have the same plan (`plan_congr`), so a change that
leaves this alone leaves the plan alone (`plan_map`).
-/
import SketchTurtle.Proofs.Turtle.PaintOrder

namespace SketchTurtle.Turtle

/-- What is drawn of a stroke. -/
structure Ink where
  color : String
  width : Float
  points : List (Point Float)

/-- The ink of a stroke. -/
def ink (stroke : Stroke) : Ink := ⟨stroke.color, stroke.width, stroke.points.value⟩

/-- What is shown of an item: the name of a layer, or the ink of a stroke. -/
def Item.shown : Item → String ⊕ Ink
  | .layer name => .inl name
  | .stroke s => .inr (ink s)

theorem planStroke_congr (options : Options) (progress : Progress) {s t : Stroke} (h : ink s = ink t) :
    planStroke options progress s = planStroke options progress t := by
  obtain ⟨hcolor, hwidth, hpoints⟩ := Ink.mk.injEq .. ▸ h
  have houtline : outline options s = outline options t := by rw [outline, outline, hpoints]
  unfold planStroke strokeOps penOps
  rw [houtline, hcolor, hwidth]

theorem planItem_congr (options : Options) (progress : Progress) {item item' : Item}
    (h : item.shown = item'.shown) : planItem options progress item = planItem options progress item' := by
  cases item with
  | layer name =>
    cases item' with
    | layer name' =>
      cases h
      rfl
    | stroke stroke' => cases h
  | stroke stroke =>
    cases item' with
    | layer name' => cases h
    | stroke stroke' => exact planStroke_congr options progress (Sum.inr.inj h)

theorem planItems_congr (options : Options) (progress : Progress) {items items' : List Item}
    (h : items.map Item.shown = items'.map Item.shown) :
    planItems options progress items = planItems options progress items' := by
  induction items generalizing items' progress with
  | nil =>
    cases items' with
    | nil => rfl
    | cons item' rest' => cases h
  | cons item rest ih =>
    cases items' with
    | nil => cases h
    | cons item' rest' =>
      rw [List.map_cons, List.map_cons, List.cons.injEq] at h
      simp only [planItems, planItem_congr options progress h.1, ih _ h.2]

/-- Sketches that show the same have the same plan. -/
theorem plan_congr (options : Options) {strokes strokes' : List Stroke} {layers layers' : List Layer}
    (h : (paintOrder strokes layers).map Item.shown = (paintOrder strokes' layers').map Item.shown) :
    plan options strokes layers = plan options strokes' layers' := by
  simp only [plan, planLayers_eq_planItems, planItems_congr options .start h]

/-- A change of strokes and layers that leaves alone what is shown. -/
structure Unseen (f : Stroke → Stroke) (g : Layer → Layer) : Prop where
  ink : ∀ s, ink (f s) = ink s
  layer : ∀ s, (f s).layer = s.layer
  id : ∀ l, (g l).id = l.id
  name : ∀ l, (g l).name = l.name
  visible : ∀ l, (g l).visible.value = l.visible.value

section

variable {f : Stroke → Stroke} {g : Layer → Layer} (h : Unseen f g)
include h

theorem Unseen.layerItems (strokes : List Stroke) (layer : Layer) :
    (layerItems (strokes.map f) (g layer)).map Item.shown = (Turtle.layerItems strokes layer).map Item.shown := by
  have hown : (strokes.map f).filter (·.layer == (g layer).id) =
      (strokes.filter (·.layer == layer.id)).map f := by
    rw [List.filter_map]
    simp only [Function.comp_def, h.layer, h.id]
  simp only [Turtle.layerItems, hown, h.visible, h.name, List.isEmpty_map]
  split
  · rfl
  · simp only [List.map_cons, List.map_map, Function.comp_def, Item.shown, h.ink]

theorem Unseen.paintOrder (strokes : List Stroke) (layers : List Layer) :
    (paintOrder (strokes.map f) (layers.map g)).map Item.shown =
      (Turtle.paintOrder strokes layers).map Item.shown := by
  induction layers with
  | nil => rfl
  | cons layer rest ih =>
    simp only [List.map_cons, paintOrder_cons, List.map_append, h.layerItems, ih]

/-- What is not seen does not change the plan. -/
theorem plan_map (options : Options) (strokes : List Stroke) (layers : List Layer) :
    plan options (strokes.map f) (layers.map g) = plan options strokes layers :=
  plan_congr options (h.paintOrder strokes layers)

end

end SketchTurtle.Turtle
