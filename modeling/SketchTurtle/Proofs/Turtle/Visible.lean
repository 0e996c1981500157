/-
A plan depends on nothing but what is visible.

What is visible of a sketch is a list (`visibleParts`): of each visible layer
that has strokes its name, and of each of its strokes the colour, the width and
the points. Planning meets just the items of that list (`shown_paintOrder`), so
sketches of one list have one plan (`plan_eq_of_visibleParts_eq`), whatever their
identifiers and speeds, their hidden and empty layers, the strokes on no layer,
and the order in which strokes of different layers lie.

A removed layer and a hidden one are met alike, which is not at all
(`paintOrder_removeLayer`), and so the pen that runs from stroke to stroke is the
same as well (`plan_removeLayer`).
-/
import SketchTurtle.Proofs.Turtle.Shown

namespace SketchTurtle.Turtle

/-! ## What is visible -/

/-- Whether a layer is visible and has strokes. -/
def hasInk (strokes : List Stroke) (layer : Layer) : Bool :=
  layer.visible.value && strokes.any (·.layer == layer.id)

/-- The ink of the strokes on a layer. -/
def layerInk (strokes : List Stroke) (layer : Layer) : List Ink :=
  (strokes.filter (·.layer == layer.id)).map ink

/-- The visible layers that have strokes, from bottom to top: their names, and
the ink of their strokes. -/
def visibleParts (strokes : List Stroke) (layers : List Layer) : List (String × List Ink) :=
  (layers.filter (hasInk strokes)).map fun layer => (layer.name, layerInk strokes layer)

/-- A part as planning meets it: the name, and then the strokes. -/
def partItems (part : String × List Ink) : List (String ⊕ Ink) := .inl part.1 :: part.2.map .inr

theorem isEmpty_filter_layer (strokes : List Stroke) (layer : Layer) :
    (strokes.filter (·.layer == layer.id)).isEmpty = !strokes.any (·.layer == layer.id) := by
  induction strokes with
  | nil => rfl
  | cons stroke rest ih =>
    cases hown : stroke.layer == layer.id with
    | true => simp [hown]
    | false => simpa [hown] using ih

theorem layerItems_of_not_hasInk {strokes : List Stroke} {layer : Layer} (h : hasInk strokes layer = false) :
    layerItems strokes layer = [] := by
  rw [hasInk, Bool.and_eq_false_iff] at h
  rw [layerItems, isEmpty_filter_layer]
  rcases h with h | h <;> simp [h]

theorem shown_layerItems {strokes : List Stroke} {layer : Layer} (h : hasInk strokes layer = true) :
    (layerItems strokes layer).map Item.shown = partItems (layer.name, layerInk strokes layer) := by
  rw [hasInk, Bool.and_eq_true] at h
  rw [layerItems, isEmpty_filter_layer, h.1, h.2]
  simp [partItems, layerInk, Item.shown]

/-- Planning meets the visible parts, and of each what is shown of it. -/
theorem shown_paintOrder (strokes : List Stroke) (layers : List Layer) :
    (paintOrder strokes layers).map Item.shown = (visibleParts strokes layers).flatMap partItems := by
  induction layers with
  | nil => rfl
  | cons layer rest ih =>
    rw [paintOrder_cons, List.map_append, ih, visibleParts, visibleParts]
    cases h : hasInk strokes layer with
    | false => rw [layerItems_of_not_hasInk h, List.filter_cons_of_neg (by simp [h]), List.map_nil, List.nil_append]
    | true => rw [shown_layerItems h, List.filter_cons_of_pos h, List.map_cons, List.flatMap_cons]

/-- **Sketches of which the same is visible have the same plan.** -/
theorem plan_eq_of_visibleParts_eq (options : Options) {strokes strokes' : List Stroke} {layers layers' : List Layer}
    (h : visibleParts strokes layers = visibleParts strokes' layers') :
    plan options strokes layers = plan options strokes' layers' := by
  refine plan_congr options ?_
  rw [shown_paintOrder, shown_paintOrder, h]

/-- The visible part of `sampleStrokes` under other identifiers and speeds, with
the strokes of the two layers in another order and one stroke on no layer. -/
def disguisedStrokes : List Stroke :=
  [⟨"1", "top", "#ff0000", 2, .of 0, .of [⟨0, 0⟩, ⟨30, 40⟩], true⟩,
    ⟨"2", "bottom", "#ff0000", 2, .default 6, .of [⟨0, 0⟩, ⟨10, 0⟩], true⟩,
    ⟨"3", "nowhere", "#123456", 7, .of 6, .of [⟨1, 2⟩, ⟨3, 4⟩], true⟩,
    ⟨"4", "bottom", "#0000ff", 3, .of 10, .of [⟨5, 5⟩], true⟩]

/-- Its layers, with an empty one between them. -/
def disguisedLayers : List Layer :=
  [⟨"bottom", "Under\nneath", .default true, true⟩, ⟨"empty", "Empty", .of true, true⟩, ⟨"top", "Over", .of true, true⟩]

theorem plan_eq_of_visibleParts_eq_sample :
    visibleParts sampleStrokes sampleLayers = visibleParts disguisedStrokes disguisedLayers ∧
      plan sampleOptions sampleStrokes sampleLayers = plan sampleOptions disguisedStrokes disguisedLayers :=
  have h : visibleParts sampleStrokes sampleLayers = visibleParts disguisedStrokes disguisedLayers := rfl
  ⟨h, plan_eq_of_visibleParts_eq sampleOptions h⟩

/-! ## Removing and hiding -/

/-- The layer, hidden if it has the given identifier. -/
def hideIf (id : String) (layer : Layer) : Layer :=
  if layer.id == id then { layer with visible := .of false } else layer

theorem layerItems_hideIf_of_eq (strokes : List Stroke) {id : String} {layer : Layer} (h : layer.id = id) :
    layerItems strokes (hideIf id layer) = [] := by
  rw [hideIf, if_pos (beq_iff_eq.2 h), layerItems]
  rfl

theorem layerItems_of_ne (strokes : List Stroke) {id : String} {layer : Layer} (h : layer.id ≠ id) :
    layerItems (strokes.filter (!·.isOn id)) layer = layerItems strokes (hideIf id layer) := by
  have hown : (strokes.filter (!·.isOn id)).filter (·.layer == layer.id) =
      strokes.filter (·.layer == layer.id) := by
    rw [List.filter_filter]
    refine List.filter_congr fun stroke _ => ?_
    by_cases hstroke : stroke.layer = layer.id
    · simp [Stroke.isOn, hstroke, h]
    · simp [hstroke]
  rw [hideIf, if_neg (by simpa using h), layerItems, layerItems, hown]

/-- Planning meets the same without a layer and its strokes as where it is hidden. -/
theorem paintOrder_removeLayer (id : String) (strokes : List Stroke) (layers : List Layer) :
    paintOrder (strokes.filter (!·.isOn id)) (layers.filter (·.id != id)) =
      paintOrder strokes (layers.map (hideIf id)) := by
  induction layers with
  | nil => rfl
  | cons layer rest ih =>
    rw [List.map_cons, paintOrder_cons, ← ih]
    by_cases h : layer.id = id
    · rw [List.filter_cons_of_neg (by simp [h]), layerItems_hideIf_of_eq strokes h, List.nil_append]
    · rw [List.filter_cons_of_pos (by simpa using h), paintOrder_cons, layerItems_of_ne strokes h]

/-- **A project without a layer has the plan that it has where the layer is
hidden.** -/
theorem plan_removeLayer (options : Options) (p : Project) (id : String) (now : Int) :
    plan options (p.removeLayer id now).strokes.value (p.removeLayer id now).layers.value =
      plan options p.strokes.value (p.layers.value.map (hideIf id)) := by
  refine plan_congr options ?_
  rw [← paintOrder_removeLayer]
  rfl

end SketchTurtle.Turtle
