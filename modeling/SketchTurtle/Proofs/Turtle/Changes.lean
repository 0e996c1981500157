/-
What a plan sets.

The pen that runs from stroke to stroke is that of the stroke drawn last (`Pen.after`), and
before any stroke it has a colour and a width that no valid stroke has. So a stroke sets its
colour just where it differs from that of the stroke drawn before it, and its width likewise
(`SetsChanges`), and a plan sets the colours and the widths that change along the strokes that are
drawn (`SetsChanges.filterMap_planItems`).
-/
import SketchTurtle.Proofs.Number.Order
import SketchTurtle.Proofs.Sketch.Valid
import SketchTurtle.Proofs.Turtle.PaintOrder

namespace SketchTurtle.Turtle

/-! ## Changes -/

section Changes

variable {α : Type} [DecidableEq α]

/-- The values that differ from the one before them. Before the first one there is `last`, or
nothing, and then the first one counts. -/
def changes (last : Option α) (values : List α) : List α :=
  ((values.zip (last :: values.map some)).filter fun step => some step.1 ≠ step.2).map (·.1)

@[simp]
theorem changes_nil (last : Option α) : changes last [] = [] := rfl

theorem changes_singleton (last : Option α) (value : α) :
    changes last [value] = if some value = last then [] else [value] := by
  simp only [changes, List.map_singleton, List.zip_cons_cons, List.zip_nil_left, List.filter_singleton]
  split <;> simp_all

theorem changes_cons (last : Option α) (value : α) (rest : List α) :
    changes last (value :: rest) = changes last [value] ++ changes (some value) rest := by
  by_cases h : some value = last <;> simp [changes, h]

/-- No change leads to the value that was there before. -/
theorem isChain_changes (last : Option α) (values : List α) :
    (last.toList ++ changes last values).IsChain (· ≠ ·) := by
  induction values generalizing last with
  | nil => cases last <;> simp
  | cons value rest ih =>
    have hrest := ih (some value)
    rw [changes_cons, changes_singleton]
    split
    · next h => simpa [← h] using hrest
    · next h =>
      cases last with
      | none => simpa using hrest
      | some before =>
        have hne : before ≠ value := fun heq => h (congrArg some heq.symm)
        simpa [List.isChain_cons_cons, hne] using hrest

end Changes

/-! ## Strokes -/

/-- The colour that an operation sets. -/
def Operation.color? : Operation → Option String
  | .penColor color => some color
  | _ => none

/-- The width that an operation sets. -/
def Operation.width? : Operation → Option Float
  | .penSize width => some width
  | _ => none

/-- The pen after a stroke, or before any. -/
def Pen.after : Option Stroke → Pen
  | none => .start
  | some stroke => ⟨stroke.color, stroke.width⟩

/-- What operations set of the pen, and what strokes want it to be. A stroke sets it just
where it differs from what the stroke before it wants. -/
structure SetsChanges {α : Type} [DecidableEq α] (set? : Operation → Option α) (wanted : Stroke → α) :
    Prop where
  other : ∀ op : Operation, op.kind ∉ [.penColor, .penSize] → set? op = none
  pen : ∀ (last : Option Stroke) {stroke : Stroke}, stroke.Valid →
    (penOps (.after last) stroke).filterMap set? = changes (last.map wanted) [wanted stroke]

theorem setsChanges_color : SetsChanges Operation.color? (·.color) where
  other op hkind := by
    cases op with
    | penColor color => exact absurd List.mem_cons_self hkind
    | _ => rfl
  pen last stroke h := by
    have hne : stroke.color ≠ "" := Check.ne_empty_of_isColor h.color
    have hwidth (condition : Prop) [Decidable condition] (width : Float) :
        (if condition then [Operation.penSize width] else []).filterMap Operation.color? = [] := by
      split <;> rfl
    rw [penOps, List.filterMap_append, hwidth, changes_singleton]
    cases last with
    | none => simp [Pen.after, Pen.start, hne, Operation.color?]
    | some before => by_cases heq : stroke.color = before.color <;> simp [Pen.after, heq, Operation.color?]

theorem setsChanges_width : SetsChanges Operation.width? (·.width) where
  other op hkind := by
    cases op with
    | penSize width => exact absurd (List.mem_cons_of_mem _ List.mem_cons_self) hkind
    | _ => rfl
  pen last stroke h := by
    have hcolor (condition : Prop) [Decidable condition] (color : String) :
        (if condition then [Operation.penColor color] else []).filterMap Operation.width? = [] := by
      split <;> rfl
    have hne (width : Float) : (stroke.width != width) = true ↔ stroke.width ≠ width := by
      rw [bne, Bool.not_eq_true', ← Bool.not_eq_true, Exact.beq_iff_eq_of_pos h.width]
    rw [penOps, List.filterMap_append, hcolor, List.nil_append, changes_singleton]
    simp only [hne]
    cases last with
    | none => simp [Pen.after, Pen.start, Exact.ne_zero_of_pos h.width, Operation.width?]
    | some before => by_cases heq : stroke.width = before.width <;> simp [Pen.after, heq, Operation.width?]

/-! ## Plans -/

namespace SetsChanges

variable {α : Type} [DecidableEq α] {set? : Operation → Option α} {wanted : Stroke → α}
  (h : SetsChanges set? wanted)
include h

theorem filterMap_eq_nil {ops : Program} (hops : ∀ op ∈ ops, op.kind ∉ [.penColor, .penSize]) :
    ops.filterMap set? = [] :=
  List.filterMap_eq_nil_iff.2 fun op hop => h.other op (hops op hop)

theorem filterMap_strokeOps (last : Option Stroke) {stroke : Stroke} (hstroke : stroke.Valid) (start : Point Float)
    (points : List (Point Float)) :
    (strokeOps (.after last) stroke start points).filterMap set? = changes (last.map wanted) [wanted stroke] := by
  have hsegments : (((segments points).filter isDrawn).flatMap segmentOps).filterMap set? = [] := by
    refine h.filterMap_eq_nil fun op hop => ?_
    obtain ⟨s, rfl | rfl⟩ := mem_segmentOps hop
    · simp [Operation.kind]
    · simp [Operation.kind]
  have hstart : [Operation.penUp, .goTo start.x start.y].filterMap set? = [] :=
    h.filterMap_eq_nil (by simp [Operation.kind])
  have hends : [Operation.penDown].filterMap set? = [] ∧ [Operation.blank].filterMap set? = [] :=
    ⟨h.filterMap_eq_nil (by simp [Operation.kind]), h.filterMap_eq_nil (by simp [Operation.kind])⟩
  simp only [strokeOps_eq, List.filterMap_append, hstart, hends, hsegments, h.pen last hstroke, List.nil_append,
    List.append_nil]

/-- Planned items set what changes along the strokes that they draw. -/
theorem filterMap_planItems (options : Options) {items : List Item}
    (hitems : ∀ stroke, .stroke stroke ∈ items → stroke.Valid) {progress : Progress} (last : Option Stroke)
    (hpen : progress.pen = .after last) :
    (planItems options progress items).1.filterMap set? =
      changes (last.map wanted) ((items.filterMap Item.drawn?).map wanted) := by
  -- Only a stroke that is drawn replaces the pen, and the next change is measured from it.
  induction items generalizing progress last with
  | nil => rfl
  | cons item rest ih =>
    have hrest := fun stroke hs => hitems stroke (List.mem_cons_of_mem _ hs)
    rw [planItems, List.filterMap_append, filterMap_drawn?_cons, List.map_append]
    cases item with
    | layer name =>
      have hname : set? (.comment name) = none := h.other _ (by simp [Operation.kind])
      rw [ih hrest last (by exact hpen)]
      simp [planItem, Item.drawn?, hname]
    | stroke stroke =>
      have hstroke := hitems stroke List.mem_cons_self
      cases hdrawable : isDrawable stroke with
      | false =>
        rw [planItem, planStroke_of_not options progress hdrawable, ih hrest last (by exact hpen)]
        simp [Item.drawn?, hdrawable]
      | true =>
        obtain ⟨_, _, _, _, _, houtline⟩ := exists_outline_eq options hdrawable
        obtain ⟨hops, hafter⟩ := planStroke_of_outline progress houtline
        rw [planItem, hops, hpen, h.filterMap_strokeOps last hstroke, ih hrest (some stroke) hafter]
        rw [Item.drawn?, if_pos hdrawable]
        exact (changes_cons (last.map wanted) (wanted stroke) _).symm

theorem filterMap_plan (options : Options) {strokes : List Stroke} (hstrokes : ∀ stroke ∈ strokes, stroke.Valid)
    (layers : List Layer) :
    (plan options strokes layers).program.filterMap set? =
      changes none ((drawn strokes layers).map fun part => wanted part.2) := by
  have hheader : (header options).filterMap set? = [] := h.filterMap_eq_nil (by simp [header, Operation.kind])
  have hfooter : footer.filterMap set? = [] := h.filterMap_eq_nil (by simp [footer, Operation.kind])
  have hitems : (planItems options .start (paintOrder strokes layers)).1.filterMap set? =
      changes none (((paintOrder strokes layers).filterMap Item.drawn?).map wanted) :=
    h.filterMap_planItems options (fun stroke hs => hstrokes stroke (mem_paintOrder_stroke hs)) none rfl
  rw [program_plan, List.filterMap_append, List.filterMap_append, hheader, hfooter, hitems,
    filterMap_drawn?_paintOrder, List.map_map, List.nil_append, List.append_nil]
  rfl

end SetsChanges

theorem planStroke_pen_of_not (options : Options) (progress : Progress) {stroke : Stroke}
    (h : isDrawable stroke = false) :
    (planStroke options progress stroke).1 = [] ∧ (planStroke options progress stroke).2.pen = progress.pen := by
  rw [planStroke_of_not options progress h]
  exact ⟨rfl, rfl⟩

theorem planLayer_of_hidden (options : Options) (strokes : List Stroke) (progress : Progress) {layer : Layer}
    (h : layer.visible.value = false) :
    (planLayer options strokes progress layer).1 = [] ∧
      (planLayer options strokes progress layer).2.pen = progress.pen := by
  rw [planLayer_eq_planItems, layerItems, h]
  exact ⟨rfl, rfl⟩

theorem count_penColor (program : Program) : program.count .penColor = (program.filterMap Operation.color?).length := by
  rw [List.length_filterMap_eq_countP, Program.count]
  exact List.countP_congr fun op _ => by cases op <;> simp [Operation.kind, Operation.color?]

theorem count_penSize (program : Program) : program.count .penSize = (program.filterMap Operation.width?).length := by
  rw [List.length_filterMap_eq_countP, Program.count]
  exact List.countP_congr fun op _ => by cases op <;> simp [Operation.kind, Operation.width?]

/-- **A plan sets colour and width just where they change** along the strokes that are drawn, the
first of which sets both. So no operation sets what the one before it has set, and there are as
many as there are changes. A stroke that is skipped has no part in it, nor has one on a hidden
layer. -/
theorem plan_setsChanges (options : Options) {strokes : List Stroke} (h : ∀ stroke ∈ strokes, stroke.Valid)
    (layers : List Layer) :
    ((plan options strokes layers).program.filterMap Operation.color? =
        changes none ((drawn strokes layers).map (·.2.color)) ∧
      ((plan options strokes layers).program.filterMap Operation.color?).IsChain (· ≠ ·) ∧
      (plan options strokes layers).program.count .penColor =
        (changes none ((drawn strokes layers).map (·.2.color))).length) ∧
    ((plan options strokes layers).program.filterMap Operation.width? =
        changes none ((drawn strokes layers).map (·.2.width)) ∧
      ((plan options strokes layers).program.filterMap Operation.width?).IsChain (· ≠ ·) ∧
      (plan options strokes layers).program.count .penSize =
        (changes none ((drawn strokes layers).map (·.2.width))).length) ∧
    (∀ progress stroke, isDrawable stroke = false →
      (planStroke options progress stroke).1 = [] ∧ (planStroke options progress stroke).2.pen = progress.pen) ∧
    ∀ progress layer, layer.visible.value = false →
      (planLayer options strokes progress layer).1 = [] ∧
        (planLayer options strokes progress layer).2.pen = progress.pen := by
  have hcolor := setsChanges_color.filterMap_plan options h layers
  have hwidth := setsChanges_width.filterMap_plan options h layers
  rw [count_penColor, count_penSize, hcolor, hwidth]
  exact ⟨⟨rfl, isChain_changes none _, rfl⟩, ⟨rfl, isChain_changes none _, rfl⟩,
    fun progress _ => planStroke_pen_of_not options progress,
    fun progress _ => planLayer_of_hidden options strokes progress⟩

/-- Both strokes that are drawn are red and two wide, so each is set once. -/
theorem plan_setsChanges_sample :
    (∀ stroke ∈ sampleStrokes, stroke.Valid) ∧
      (plan sampleOptions sampleStrokes sampleLayers).program.filterMap Operation.color? = ["#ff0000"] ∧
      (plan sampleOptions sampleStrokes sampleLayers).program.count .penSize = 1 := by
  have hvalid : ∀ stroke ∈ sampleStrokes, stroke.Valid := by decide +kernel
  obtain ⟨⟨hcolors, -, -⟩, ⟨-, -, hsizes⟩, -⟩ := plan_setsChanges sampleOptions hvalid sampleLayers
  have hwidths : (changes none ((drawn sampleStrokes sampleLayers).map (·.2.width))).length = 1 := by
    decide +kernel
  exact ⟨hvalid, hcolors.trans (by decide +kernel), hsizes.trans hwidths⟩

end SketchTurtle.Turtle
