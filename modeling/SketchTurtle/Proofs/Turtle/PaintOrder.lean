/-
Planning as one walk.

The loops over layers and over the strokes of each layer meet one list of
items (`paintOrder`): the name of each visible layer that has strokes, and
after it its strokes in drawing order. Planning is a walk along that list
(`program_plan`), so what holds of every program is one induction on items.

A stroke of at least two points is drawn, from its first point on
(`exists_outline_eq`, `planStroke_of_outline`); any other is skipped
(`planStroke_of_not`).
-/
import SketchTurtle.Proofs.Geometry.Splitting
import SketchTurtle.Turtle.Plan
import Mathlib.Data.List.ProdSigma

namespace SketchTurtle.Turtle

/-- What planning meets on its way. -/
inductive Item where
  | layer (name : String)
  | stroke (stroke : Stroke)

/-- What planning meets of a layer: its name and its strokes, or nothing if it is
hidden or has none. -/
def layerItems (strokes : List Stroke) (layer : Layer) : List Item :=
  let own := strokes.filter (·.layer == layer.id)
  if !layer.visible.value || own.isEmpty then [] else .layer layer.name :: own.map .stroke

/-- What planning meets, from the bottom layer to the top one. -/
def paintOrder (strokes : List Stroke) (layers : List Layer) : List Item :=
  layers.flatMap (layerItems strokes)

theorem paintOrder_cons (strokes : List Stroke) (layer : Layer) (layers : List Layer) :
    paintOrder strokes (layer :: layers) = layerItems strokes layer ++ paintOrder strokes layers :=
  List.flatMap_cons

/-- Plans one item. -/
def planItem (options : Options) (progress : Progress) : Item → Program × Progress
  | .layer name =>
    ([.comment name], { progress with
      tally := { progress.tally with layers := progress.tally.layers + 1 } })
  | .stroke stroke => planStroke options progress stroke

/-- Plans items one after the other. -/
def planItems (options : Options) : Progress → List Item → Program × Progress
  | progress, [] => ([], progress)
  | progress, item :: rest =>
    ((planItem options progress item).1 ++ (planItems options (planItem options progress item).2 rest).1,
      (planItems options (planItem options progress item).2 rest).2)

/-! ## The walk -/

section

variable (options : Options)

theorem planItems_append (progress : Progress) (items more : List Item) :
    planItems options progress (items ++ more) =
      ((planItems options progress items).1 ++
          (planItems options (planItems options progress items).2 more).1,
        (planItems options (planItems options progress items).2 more).2) := by
  induction items generalizing progress with
  | nil => rfl
  | cons item rest ih => simp only [List.cons_append, planItems, ih, List.append_assoc]

theorem planStrokes_eq_planItems (progress : Progress) (strokes : List Stroke) :
    planStrokes options progress strokes = planItems options progress (strokes.map .stroke) := by
  induction strokes generalizing progress with
  | nil => rfl
  | cons stroke rest ih => simp only [planStrokes, ih, List.map_cons, planItems, planItem]

theorem planLayer_eq_planItems (strokes : List Stroke) (progress : Progress) (layer : Layer) :
    planLayer options strokes progress layer =
      planItems options progress (layerItems strokes layer) := by
  simp only [planLayer, layerItems]
  split
  · rfl
  · simp only [planStrokes_eq_planItems, planItems, planItem, List.singleton_append]

theorem planLayers_eq_planItems (strokes : List Stroke) (progress : Progress) (layers : List Layer) :
    planLayers options strokes progress layers =
      planItems options progress (paintOrder strokes layers) := by
  induction layers generalizing progress with
  | nil => rfl
  | cons layer rest ih =>
    simp only [planLayers, planLayer_eq_planItems, ih, paintOrder_cons, planItems_append]

/-- A program is what planning makes of the items, between header and footer. -/
theorem program_plan (strokes : List Stroke) (layers : List Layer) :
    (plan options strokes layers).program =
      header options ++ (planItems options .start (paintOrder strokes layers)).1 ++ footer := by
  simp only [plan, planLayers_eq_planItems]

end

/-! ## Strokes -/

/-- Whether a stroke has points enough to be drawn. -/
def isDrawable (stroke : Stroke) : Bool := 2 ≤ stroke.points.value.length

theorem exists_outline_eq (options : Options) {stroke : Stroke} (h : isDrawable stroke = true) :
    ∃ first rest second others, stroke.points.value = first :: rest ∧
      outline options stroke =
        Point.toTurtle options.width options.height first :: second :: others := by
  obtain ⟨first, interior, last, hpoints⟩ := Polyline.exists_eq_cons_append (of_decide_eq_true h)
  obtain ⟨inner, hinner⟩ := Polyline.exists_simplify_eq deviation options.tolerance.value first last interior
  rw [outline, hpoints, hinner]
  cases inner with
  | nil => exact ⟨first, _, _, _, rfl, rfl⟩
  | cons second others => exact ⟨first, _, _, _, rfl, rfl⟩

theorem length_outline_lt (options : Options) {stroke : Stroke} (h : isDrawable stroke = false) :
    (outline options stroke).length < 2 := by
  have hlength : stroke.points.value.length < 2 := by simpa [isDrawable] using h
  rw [outline, Polyline.simplify_of_le _ _ (by omega), List.length_map]
  exact hlength

theorem planStroke_of_not (options : Options) (progress : Progress) {stroke : Stroke}
    (h : isDrawable stroke = false) :
    planStroke options progress stroke =
      ([], { progress with tally := { progress.tally with skipped := progress.tally.skipped + 1 } }) := by
  have hlength := length_outline_lt options h
  rw [planStroke]
  split
  · next houtline =>
    simp only [houtline, List.length_cons] at hlength
    omega
  · rfl

/-- A stroke of two points or more is drawn along its outline, and its pen is the
one that runs from then on. -/
theorem planStroke_of_outline {options : Options} (progress : Progress) {stroke : Stroke}
    {start second : Point Float} {others : List (Point Float)}
    (h : outline options stroke = start :: second :: others) :
    (planStroke options progress stroke).1 =
        strokeOps progress.pen stroke start (outline options stroke) ∧
      (planStroke options progress stroke).2.pen = ⟨stroke.color, stroke.width⟩ := by
  rw [planStroke, h]
  exact ⟨rfl, rfl⟩

/-- The operations of a stroke, part by part. -/
theorem strokeOps_eq (pen : Pen) (stroke : Stroke) (start : Point Float) (points : List (Point Float)) :
    strokeOps pen stroke start points =
      [.penUp, .goTo start.x start.y] ++ penOps pen stroke ++ [.penDown] ++
        ((segments points).filter isDrawn).flatMap segmentOps ++ [.blank] := by
  simp [strokeOps]

theorem penOps_sublist (pen : Pen) (stroke : Stroke) :
    (penOps pen stroke).Sublist [.penColor stroke.color, .penSize stroke.width] := by
  have hcolor : (if stroke.color != pen.color then [Operation.penColor stroke.color] else []).Sublist
      [.penColor stroke.color] := by
    split
    · exact List.Sublist.refl _
    · exact List.nil_sublist _
  have hwidth : (if stroke.width != pen.width then [Operation.penSize stroke.width] else []).Sublist
      [.penSize stroke.width] := by
    split
    · exact List.Sublist.refl _
    · exact List.nil_sublist _
  exact hcolor.append hwidth

theorem mem_penOps {pen : Pen} {stroke : Stroke} {op : Operation} (h : op ∈ penOps pen stroke) :
    op = .penColor stroke.color ∨ op = .penSize stroke.width :=
  List.mem_pair.1 ((penOps_sublist pen stroke).subset h)

theorem mem_segmentOps {parts : List (Point Float × Point Float)} {op : Operation}
    (h : op ∈ parts.flatMap segmentOps) :
    ∃ s : Point Float × Point Float,
      op = .setHeading (Point.heading s.1 s.2) ∨ op = .forward (Point.distance s.1 s.2) := by
  obtain ⟨s, -, h⟩ := List.mem_flatMap.1 h
  exact ⟨s, List.mem_pair.1 h⟩

theorem mem_strokeOps {pen : Pen} {stroke : Stroke} {start : Point Float} {points : List (Point Float)} {op : Operation}
    (h : op ∈ strokeOps pen stroke start points) :
    op ∈ [.penUp, .goTo start.x start.y, .penColor stroke.color, .penSize stroke.width, .penDown, .blank] ∨
      ∃ s : Point Float × Point Float,
        op = .setHeading (Point.heading s.1 s.2) ∨ op = .forward (Point.distance s.1 s.2) := by
  simp only [strokeOps_eq, List.mem_append, List.mem_cons, List.not_mem_nil, or_false] at h
  rcases h with (((hstart | hset) | rfl) | hsegment) | rfl
  · rcases hstart with rfl | rfl
    · simp
    · simp
  · rcases mem_penOps hset with rfl | rfl
    · simp
    · simp
  · simp
  · exact .inr (mem_segmentOps hsegment)
  · simp

/-! ## What is drawn -/

/-- The pairs of a visible layer and a drawable stroke on it: by layers from
bottom to top, and in drawing order within a layer. -/
def drawn (strokes : List Stroke) (layers : List Layer) : List (Layer × Stroke) :=
  (layers ×ˢ strokes).filter fun part =>
    part.1.visible.value && part.2.layer == part.1.id && isDrawable part.2

theorem drawn_cons (strokes : List Stroke) (layer : Layer) (layers : List Layer) :
    drawn strokes (layer :: layers) =
      (if layer.visible.value then
        (strokes.filter fun stroke => stroke.layer == layer.id && isDrawable stroke).map (layer, ·)
      else []) ++ drawn strokes layers := by
  rw [drawn, List.product_cons, List.filter_append, List.filter_map]
  cases h : layer.visible.value with
  | false => simp [drawn, Function.comp_def, h]
  | true => simp [drawn, Function.comp_def, h]

/-- The stroke that an item draws. -/
def Item.drawn? : Item → Option Stroke
  | .layer _ => none
  | .stroke s => if isDrawable s then some s else none

theorem filterMap_drawn?_cons (item : Item) (rest : List Item) :
    (item :: rest).filterMap Item.drawn? = item.drawn?.toList ++ rest.filterMap Item.drawn? := by
  rw [List.filterMap_cons]
  cases item.drawn? with
  | none => rfl
  | some stroke => rfl

theorem filterMap_drawn?_map_stroke (strokes : List Stroke) :
    (strokes.map .stroke).filterMap Item.drawn? = strokes.filter isDrawable := by
  rw [List.filterMap_map, ← List.filterMap_eq_filter]
  rfl

theorem filterMap_drawn?_layerItems (strokes : List Stroke) (layer : Layer) :
    (layerItems strokes layer).filterMap Item.drawn? =
      if layer.visible.value then
        strokes.filter fun stroke => stroke.layer == layer.id && isDrawable stroke
      else [] := by
  have hown : (strokes.filter fun stroke => stroke.layer == layer.id && isDrawable stroke) =
      (strokes.filter (·.layer == layer.id)).filter isDrawable := by
    rw [List.filter_filter]
    simp only [Bool.and_comm]
  rw [hown, layerItems]
  cases hvisible : layer.visible.value with
  | false => rfl
  | true =>
    cases hempty : (strokes.filter (·.layer == layer.id)).isEmpty with
    | true =>
      rw [List.isEmpty_iff.1 hempty]
      rfl
    | false => exact filterMap_drawn?_map_stroke _

/-- The strokes that planning draws are the drawable ones of visible layers. -/
theorem filterMap_drawn?_paintOrder (strokes : List Stroke) (layers : List Layer) :
    (paintOrder strokes layers).filterMap Item.drawn? = (drawn strokes layers).map (·.2) := by
  induction layers with
  | nil => rfl
  | cons layer rest ih =>
    rw [paintOrder_cons, List.filterMap_append, ih, filterMap_drawn?_layerItems, drawn_cons,
      List.map_append]
    split
    · simp [Function.comp_def]
    · rfl

theorem mem_paintOrder_stroke {strokes : List Stroke} {layers : List Layer} {stroke : Stroke}
    (h : .stroke stroke ∈ paintOrder strokes layers) : stroke ∈ strokes := by
  obtain ⟨layer, -, h⟩ := List.mem_flatMap.1 h
  simp only [layerItems] at h
  split at h
  · cases h
  · rcases List.mem_cons.1 h with h | h
    · cases h
    · obtain ⟨_, hs, heq⟩ := List.mem_map.1 h
      cases heq
      exact (List.mem_filter.1 hs).1

theorem mem_paintOrder_layer {strokes : List Stroke} {layers : List Layer} {name : String}
    (h : .layer name ∈ paintOrder strokes layers) :
    ∃ layer ∈ layers, layer.visible.value = true ∧ layer.name = name := by
  obtain ⟨layer, hlayer, h⟩ := List.mem_flatMap.1 h
  simp only [layerItems] at h
  split at h
  · cases h
  · next hshown =>
    refine ⟨layer, hlayer, by simp at hshown; exact hshown.1, ?_⟩
    rcases List.mem_cons.1 h with h | h
    · cases h
      rfl
    · obtain ⟨_, _, heq⟩ := List.mem_map.1 h
      cases heq

/-! ## What is emitted -/

/-- What holds of every layer's comment and of every operation of every stroke
holds of all that planning emits. -/
theorem forall_mem_planItems (options : Options) (progress : Progress) {items : List Item}
    {P : Operation → Prop} (hlayer : ∀ name, .layer name ∈ items → P (.comment name))
    (hstroke : ∀ stroke, .stroke stroke ∈ items →
      ∀ pen start points, ∀ op ∈ strokeOps pen stroke start points, P op) :
    ∀ op ∈ (planItems options progress items).1, P op := by
  induction items generalizing progress with
  | nil => nofun
  | cons item rest ih =>
    have hrest := ih (planItem options progress item).2
      (fun name h => hlayer name (List.mem_cons_of_mem _ h))
      (fun stroke h => hstroke stroke (List.mem_cons_of_mem _ h))
    refine List.forall_mem_append.2 ⟨?_, hrest⟩
    cases item with
    | layer name => exact List.forall_mem_singleton.2 (hlayer name List.mem_cons_self)
    | stroke stroke =>
      cases hdrawable : isDrawable stroke with
      | false =>
        rw [planItem, planStroke_of_not options progress hdrawable]
        nofun
      | true =>
        obtain ⟨_, _, _, _, _, houtline⟩ := exists_outline_eq options hdrawable
        rw [planItem, (planStroke_of_outline progress houtline).1]
        exact hstroke stroke List.mem_cons_self _ _ _

/-! ## A sketch -/

/-- Two strokes of one ink on two layers, and between them one on a hidden layer
and one of a single point. -/
def sampleStrokes : List Stroke :=
  [⟨"a", "under", "#ff0000", 2, .of 6, .of [⟨0, 0⟩, ⟨10, 0⟩], true⟩,
    ⟨"b", "hidden", "#00ff00", 2, .of 6, .of [⟨0, 0⟩, ⟨0, 20⟩], true⟩,
    ⟨"c", "under", "#0000ff", 3, .of 6, .of [⟨5, 5⟩], true⟩,
    ⟨"d", "over", "#ff0000", 2, .of 6, .of [⟨0, 0⟩, ⟨30, 40⟩], true⟩]

def sampleLayers : List Layer :=
  [⟨"under", "Under\nneath", .of true, true⟩, ⟨"hidden", "Hidden", .of false, true⟩, ⟨"over", "Over", .of true, true⟩]

def sampleOptions : Options := ⟨800, 600, 6, .of "#0a0a0a", .of 0.5⟩

end SketchTurtle.Turtle
