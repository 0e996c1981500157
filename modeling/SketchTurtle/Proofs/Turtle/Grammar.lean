/-
The order of operations in a planned program.

`Grammar.program` spells that order as a regular expression over the kinds of
operations, and every plan is a word of it (`kinds_plan`). Regular
expressions say nothing of colours and distances, so what an operation may
rely on is told apart: `InOrder` says what the operations before it are, and what
they have made of the pen, whatever state they began in. It holds of every
operation of a plan because a stroke keeps it in any place (`each_strokeOps`).
-/
import SketchTurtle.Proofs.Turtle.Drawing
import Mathlib.Computability.RegularExpressions

namespace SketchTurtle.Turtle

open RegularExpression (char)

/-! ## The grammar -/

namespace Grammar

/-- One operation of each of these kinds, in this order. -/
def word (kinds : List Kind) : RegularExpression Kind := (kinds.map char).prod

/-- An operation that may be left out. -/
def optional (kind : Kind) : RegularExpression Kind := char kind + 1

/-- What stands before all layers. -/
def opening : RegularExpression Kind :=
  word [.importTurtle, .blank, .comment, .setupScreen, .blank, .createTurtle, .blank]

def stroke : RegularExpression Kind :=
  word [.penUp, .goTo] * optional .penColor * optional .penSize * word [.penDown] *
    (word [.setHeading, .forward]).star * word [.blank]

/-- The name of a layer and its strokes. -/
def layer : RegularExpression Kind := word [.comment] * stroke.star

def program : RegularExpression Kind := opening * layer.star * word [.comment, .done]

theorem mem_word (kinds : List Kind) : kinds ∈ (word kinds).matches' := by
  induction kinds with
  | nil => exact Language.nil_mem_one
  | cons kind rest ih => exact Language.append_mem_mul (a := [kind]) rfl ih

theorem append_mem_mul {α : Type} {r s : RegularExpression α} {v w : List α} (hv : v ∈ r.matches')
    (hw : w ∈ s.matches') : v ++ w ∈ (r * s).matches' :=
  Language.append_mem_mul hv hw

theorem mem_star {α : Type} {r : RegularExpression α} {w : List α} (h : w ∈ r.matches') : w ∈ r.star.matches' := by
  rw [RegularExpression.matches'_star, Language.mem_kstar]
  exact ⟨[w], by simp, by simpa using h⟩

theorem append_mem_star {α : Type} {r : RegularExpression α} {v w : List α} (hv : v ∈ r.star.matches')
    (hw : w ∈ r.star.matches') : v ++ w ∈ r.star.matches' := by
  rw [RegularExpression.matches'_star] at hv hw ⊢
  exact (kstar_mul_kstar r.matches').le (Language.append_mem_mul hv hw)

theorem mem_optional (condition : Prop) [Decidable condition] (kind : Kind) :
    (if condition then [kind] else []) ∈ (optional kind).matches' := by
  split
  · exact .inl rfl
  · exact .inr rfl

theorem nil_mem_star {α : Type} (r : RegularExpression α) : [] ∈ r.star.matches' := by
  rw [RegularExpression.matches'_star]
  exact Language.nil_mem_kstar r.matches'

end Grammar

open Grammar

theorem kinds_segmentOps (parts : List (Point Float × Point Float)) :
    (parts.flatMap segmentOps).map Operation.kind ∈ (word [.setHeading, .forward]).star.matches' := by
  induction parts with
  | nil => exact nil_mem_star _
  | cons s rest ih =>
    rw [List.flatMap_cons, List.map_append]
    exact append_mem_star (mem_star (mem_word [.setHeading, .forward])) ih

theorem kinds_strokeOps (pen : Pen) (stroke : Stroke) (start : Point Float) (points : List (Point Float)) :
    (strokeOps pen stroke start points).map Operation.kind ∈ Grammar.stroke.matches' := by
  have hkinds : (strokeOps pen stroke start points).map Operation.kind =
      [.penUp, .goTo] ++ (if stroke.color != pen.color then [Kind.penColor] else []) ++
        (if stroke.width != pen.width then [Kind.penSize] else []) ++ [.penDown] ++
        (((segments points).filter isDrawn).flatMap segmentOps).map Operation.kind ++ [.blank] := by
    simp only [strokeOps, penOps, List.map_append, List.map_cons, List.map_nil, apply_ite (List.map Operation.kind),
      Operation.kind, List.append_assoc, List.cons_append, List.nil_append]
  rw [hkinds]
  exact append_mem_mul (append_mem_mul (append_mem_mul (append_mem_mul (append_mem_mul
    (mem_word [.penUp, .goTo]) (mem_optional _ _)) (mem_optional _ _)) (mem_word [.penDown]))
    (kinds_segmentOps _)) (mem_word [.blank])

theorem kinds_planStrokes (options : Options) (progress : Progress) (strokes : List Stroke) :
    (planItems options progress (strokes.map .stroke)).1.map Operation.kind ∈ Grammar.stroke.star.matches' := by
  induction strokes generalizing progress with
  | nil => exact nil_mem_star _
  | cons stroke rest ih =>
    rw [List.map_cons, planItems, List.map_append]
    refine append_mem_star ?_ (ih _)
    cases hdrawable : isDrawable stroke with
    | false =>
      rw [planItem, planStroke_of_not options progress hdrawable]
      exact nil_mem_star _
    | true =>
      obtain ⟨_, _, _, _, _, houtline⟩ := exists_outline_eq options hdrawable
      rw [planItem, (planStroke_of_outline progress houtline).1]
      exact mem_star (kinds_strokeOps _ _ _ _)

theorem kinds_planItems (options : Options) (progress : Progress) (strokes : List Stroke) (layers : List Layer) :
    (planItems options progress (paintOrder strokes layers)).1.map Operation.kind ∈ Grammar.layer.star.matches' := by
  induction layers generalizing progress with
  | nil => exact nil_mem_star _
  | cons layer rest ih =>
    rw [paintOrder_cons, planItems_append, List.map_append]
    refine append_mem_star ?_ (ih _)
    rw [layerItems]
    split
    · exact nil_mem_star _
    · rw [planItems, List.map_append]
      exact mem_star (append_mem_mul (mem_word [.comment]) (kinds_planStrokes options _ _))

/-! ## What comes before an operation -/

/-- Something that holds of each operation of a program and the operations before
it, if it is run after others. -/
def Each (P : Program → Operation → Prop) : Program → Program → Prop
  | _, [] => True
  | before, op :: rest => P before op ∧ Each P (before ++ [op]) rest

theorem each_append {P : Program → Operation → Prop} {before program more : Program} :
    Each P before (program ++ more) ↔ Each P before program ∧ Each P (before ++ program) more := by
  induction program generalizing before with
  | nil => simp [Each]
  | cons op rest ih => simp [Each, ih, and_assoc]

theorem each_of_forall {P : Program → Operation → Prop} {program : Program}
    (h : ∀ op ∈ program, ∀ before, P before op) (before : Program) : Each P before program := by
  induction program generalizing before with
  | nil => trivial
  | cons op rest ih =>
    exact ⟨h op List.mem_cons_self before, ih (fun op hop => h op (List.mem_cons_of_mem _ hop)) _⟩

theorem Each.holds {P : Program → Operation → Prop} {before program done : Program} {op : Operation}
    (h : Each P before program) (hinitial : done ++ [op] <+: program) : P (before ++ done) op := by
  obtain ⟨rest, rfl⟩ := hinitial
  rw [each_append, each_append] at h
  exact h.1.2.1

/-- What an operation may rely on, in a program that draws only strokes of which
`Q` holds. A move without a line is made with the pen up, a line is drawn with the
pen down along the segment that the turtle was turned to, and the pen is
lowered for the first time when colour and width are those of the stroke. -/
def InOrder (options : Options) (Q : Stroke → Prop) (before : Program) : Operation → Prop
  | .goTo .. => ∀ m, (Machine.run m before).down = false
  | .forward distance => (∀ m, (Machine.run m before).down = true) ∧
      ∃ stroke s earlier, Q stroke ∧ s ∈ segments (outline options stroke) ∧ isDrawn s = true ∧
        before = earlier ++ [.setHeading (Point.heading s.1 s.2)] ∧ distance = Point.distance s.1 s.2
  | .penDown => .penDown ∉ before →
      ∃ stroke x y earlier, Q stroke ∧ before = earlier ++ .penUp :: .goTo x y :: penOps .start stroke
  | _ => True

variable {options : Options} {Q : Stroke → Prop}

theorem each_segmentOps {stroke : Stroke} (hstroke : Q stroke) {parts : List (Point Float × Point Float)}
    (hparts : ∀ s ∈ parts, s ∈ segments (outline options stroke) ∧ isDrawn s = true) {before : Program}
    (hdown : ∀ m, (Machine.run m before).down = true) :
    Each (InOrder options Q) before (parts.flatMap segmentOps) := by
  induction parts generalizing before with
  | nil => trivial
  | cons s rest ih =>
    obtain ⟨hs, hrest⟩ := List.forall_mem_cons.1 hparts
    have hturned : ∀ m, (Machine.run m (before ++ [.setHeading (Point.heading s.1 s.2)])).down = true := by
      intro m
      rw [Machine.run_append]
      exact hdown m
    have hdrawn : ∀ m, (Machine.run m (before ++ segmentOps s)).down = true := by
      intro m
      rw [Machine.run_append]
      exact hdown m
    rw [List.flatMap_cons, each_append]
    exact ⟨⟨trivial, ⟨hturned, stroke, s, before, hstroke, hs.1, hs.2, rfl, rfl⟩, trivial⟩, ih hrest hdrawn⟩

theorem each_strokeOps {stroke : Stroke} (hstroke : Q stroke) {before : Program} {pen : Pen}
    (hpen : pen = .start ∨ .penDown ∈ before) (start : Point Float) :
    Each (InOrder options Q) before (strokeOps pen stroke start (outline options stroke)) := by
  have hup : ∀ m, (Machine.run m (before ++ [.penUp])).down = false := by
    intro m
    rw [Machine.run_append]
    rfl
  have hset : ∀ op ∈ penOps pen stroke, ∀ before, InOrder options Q before op := by
    intro op hop before
    rcases mem_penOps hop with rfl | rfl
    · trivial
    · trivial
  have hdown : ∀ m ops, (Machine.run m (before ++ ops ++ [.penDown])).down = true := by
    intro m ops
    rw [Machine.run_append]
    rfl
  have hlowered : InOrder options Q (before ++ .penUp :: .goTo start.x start.y :: penOps pen stroke) .penDown := by
    intro hnot
    rcases hpen with rfl | hmem
    · exact ⟨stroke, start.x, start.y, before, hstroke, rfl⟩
    · exact absurd (List.mem_append_left _ hmem) hnot
  have hparts : ∀ s ∈ (segments (outline options stroke)).filter isDrawn,
      s ∈ segments (outline options stroke) ∧ isDrawn s = true := fun s hs => List.mem_filter.1 hs
  rw [strokeOps, each_append, each_append]
  exact ⟨⟨⟨trivial, hup, each_of_forall hset _⟩, hlowered, each_segmentOps hstroke hparts fun m => hdown m _⟩,
    trivial, trivial⟩

/-- Planned items are in order, after a lowered pen and as the first of all. -/
theorem each_planItems {items : List Item} (hitems : ∀ stroke ∈ items.filterMap Item.drawn?, Q stroke)
    {before : Program} {progress : Progress} (hpen : progress.pen = .start ∨ .penDown ∈ before) :
    Each (InOrder options Q) before (planItems options progress items).1 := by
  induction items generalizing before progress with
  | nil => trivial
  | cons item rest ih =>
    rw [filterMap_drawn?_cons, List.forall_mem_append] at hitems
    rw [planItems, each_append]
    cases item with
    | layer name =>
      refine ⟨⟨trivial, trivial⟩, ih hitems.2 ?_⟩
      rcases hpen with hpen | hpen
      · exact .inl hpen
      · exact .inr (List.mem_append_left _ hpen)
    | stroke stroke =>
      cases hdrawable : isDrawable stroke with
      | false =>
        rw [planItem, planStroke_of_not options progress hdrawable]
        refine ⟨trivial, ih hitems.2 ?_⟩
        simpa using hpen
      | true =>
        obtain ⟨_, _, _, _, _, houtline⟩ := exists_outline_eq options hdrawable
        have hstroke : Q stroke := hitems.1 stroke (by simp [Item.drawn?, hdrawable])
        rw [planItem, (planStroke_of_outline progress houtline).1]
        refine ⟨each_strokeOps hstroke hpen _, ih hitems.2 (.inr ?_)⟩
        simp [strokeOps]

theorem each_plan (options : Options) (strokes : List Stroke) (layers : List Layer) :
    Each (InOrder options fun stroke => ∃ layer, (layer, stroke) ∈ drawn strokes layers) []
      (plan options strokes layers).program := by
  have hitems : ∀ stroke ∈ (paintOrder strokes layers).filterMap Item.drawn?,
      ∃ layer, (layer, stroke) ∈ drawn strokes layers := by
    intro stroke hstroke
    rw [filterMap_drawn?_paintOrder] at hstroke
    obtain ⟨⟨layer, _⟩, hpart, rfl⟩ := List.mem_map.1 hstroke
    exact ⟨layer, hpart⟩
  rw [program_plan, each_append, each_append]
  exact ⟨⟨by simp [header, Each, InOrder], each_planItems hitems (.inl rfl)⟩, by simp [footer, Each, InOrder]⟩

theorem kinds_plan (options : Options) (strokes : List Stroke) (layers : List Layer) :
    (plan options strokes layers).program.map Operation.kind ∈ Grammar.program.matches' := by
  rw [program_plan, List.map_append, List.map_append]
  exact append_mem_mul (append_mem_mul (mem_word _) (kinds_planItems options .start strokes layers))
    (mem_word [.comment, .done])

/-- Nothing is in force at the start, so the first stroke sets its ink. -/
theorem penOps_start {stroke : Stroke} (h : stroke.Valid) :
    penOps .start stroke = [.penColor stroke.color, .penSize stroke.width] := by
  have hcolor : stroke.color ≠ "" := Check.ne_empty_of_isColor h.color
  have hwidth : (stroke.width == 0) = false := by
    rw [Bool.eq_false_iff, Ne, Exact.beq_iff_eq_of_pos h.width]
    exact Exact.ne_zero_of_pos h.width
  simp [penOps, Pen.start, hcolor, bne, hwidth]

/-! ## Plans -/

/-- **A plan is a word of the grammar, and each of its operations is in order**:
places are gone to with the pen up, lines are drawn with the pen down, each along the
segment that the turtle was just turned to and longer than the deadband, and
the first stroke sets its colour and its width before the pen is lowered. -/
theorem plan_inOrder (options : Options) (strokes : List Stroke) (layers : List Layer) :
    (plan options strokes layers).program.map Operation.kind ∈ Grammar.program.matches' ∧
      (∀ start before x y, before ++ [.goTo x y] <+: (plan options strokes layers).program →
        (Machine.run start before).down = false) ∧
      (∀ start before d, before ++ [.forward d] <+: (plan options strokes layers).program →
        (Machine.run start before).down = true ∧ 0.5 < d ∧
          ∃ part s earlier, part ∈ drawn strokes layers ∧ s ∈ segments (outline options part.2) ∧
            before = earlier ++ [.setHeading (Point.heading s.1 s.2)] ∧ d = Point.distance s.1 s.2) ∧
      ((∀ stroke ∈ strokes, stroke.Valid) →
        ∀ before, before ++ [.penDown] <+: (plan options strokes layers).program → .penDown ∉ before →
          ∃ part x y earlier, part ∈ drawn strokes layers ∧
            before = earlier ++ [.penUp, .goTo x y, .penColor part.2.color, .penSize part.2.width]) := by
  have heach := each_plan options strokes layers
  refine ⟨kinds_plan options strokes layers, ?_, ?_, ?_⟩
  · intro start before x y hinitial
    exact heach.holds hinitial start
  · intro start before d hinitial
    obtain ⟨hdown, stroke, s, earlier, ⟨layer, hpart⟩, hs, hdrawn, hturned, rfl⟩ := heach.holds hinitial
    exact ⟨hdown start, of_decide_eq_true hdrawn, (layer, stroke), s, earlier, hpart, hs, hturned, rfl⟩
  · intro hvalid before hinitial hnot
    obtain ⟨stroke, x, y, earlier, ⟨layer, hpart⟩, hbefore⟩ := heach.holds hinitial hnot
    have hstroke : stroke ∈ strokes := (List.mem_product.1 (List.mem_filter.1 hpart).1).2
    rw [penOps_start (hvalid stroke hstroke)] at hbefore
    exact ⟨(layer, stroke), x, y, earlier, hpart, hbefore⟩

theorem eq_penDown_of_kind {op : Operation} (h : op.kind = .penDown) : op = .penDown := by
  cases op with
  | penDown => rfl
  | _ => cases h

/-- The pen is lowered for the first time after twelve operations. -/
theorem plan_inOrder_sample :
    (∀ stroke ∈ sampleStrokes, stroke.Valid) ∧
      (plan sampleOptions sampleStrokes sampleLayers).program.take 12 ++ [.penDown] <+:
        (plan sampleOptions sampleStrokes sampleLayers).program ∧
      .penDown ∉ (plan sampleOptions sampleStrokes sampleLayers).program.take 12 ∧
      ∃ part x y earlier, part ∈ drawn sampleStrokes sampleLayers ∧
        (plan sampleOptions sampleStrokes sampleLayers).program.take 12 =
          earlier ++ [.penUp, .goTo x y, .penColor part.2.color, .penSize part.2.width] := by
  have hvalid : ∀ stroke ∈ sampleStrokes, stroke.Valid := by decide +kernel
  have horder := plan_inOrder sampleOptions sampleStrokes sampleLayers
  generalize hprogram : (plan sampleOptions sampleStrokes sampleLayers).program = program at horder ⊢
  have hkind : program[12]?.map Operation.kind = some .penDown := by
    rw [← hprogram]
    decide +kernel
  have hkinds : Kind.penDown ∉ (program.take 12).map Operation.kind := by
    rw [← hprogram]
    decide +kernel
  have hinitial : program.take 12 ++ [.penDown] <+: program := by
    obtain ⟨op, hop, hdown⟩ := Option.map_eq_some_iff.1 hkind
    have htake := List.take_prefix 13 program
    rwa [List.take_add_one, hop, eq_penDown_of_kind hdown] at htake
  have hnot : .penDown ∉ program.take 12 := fun hmem => hkinds (List.mem_map_of_mem hmem)
  exact ⟨hvalid, hinitial, hnot, horder.2.2.2 hvalid _ hinitial hnot⟩

end SketchTurtle.Turtle
