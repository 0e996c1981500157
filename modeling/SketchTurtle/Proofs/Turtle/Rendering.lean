/-
The lines of a program.

What planning emits for checked strokes and options is expressed by lines of
few forms (`Template`), filled with colours, whole numbers and the texts of
doubles, and by comments, which hold the names of layers. Each of them is
unbroken, so the lines of the rendered text are those of the operations, and
no name ends its line (`render_plan`).
-/
import SketchTurtle.Proofs.Number.Characters
import SketchTurtle.Proofs.Sketch.Valid
import SketchTurtle.Proofs.Turtle.PaintOrder
import SketchTurtle.Turtle.Render

namespace SketchTurtle.Turtle

/-! ## Forms of lines -/

/-- The lines that are the same in every program. -/
def fixedLines : List String :=
  ["import turtle", "", "screen = turtle.Screen()", "t = turtle.Turtle()", "t.hideturtle()",
    "t.penup()", "t.pendown()", "turtle.done()", "# Setup", "# Keep window open"]

/-- The forms of lines that hold no text of a document but colours. -/
inductive Template : String → Prop where
  | fixed {line : String} (h : line ∈ fixedLines) : Template line
  | background {color : String} (h : Check.isColor color = true) :
    Template ("screen.bgcolor(\"" ++ color ++ "\")")
  | size (width height : Float) :
    Template ("screen.setup(" ++ literal width ++ ", " ++ literal height ++ ")")
  | speed (n : Int) : Template ("t.speed(" ++ toString n ++ ")")
  | color {color : String} (h : Check.isColor color = true) : Template ("t.pencolor(\"" ++ color ++ "\")")
  | width (width : Float) : Template ("t.pensize(" ++ literal width ++ ")")
  | position (x y : Float) : Template ("t.goto(" ++ coordinate x ++ ", " ++ coordinate y ++ ")")
  | heading (angle : Float) : Template ("t.setheading(" ++ coordinate angle ++ ")")
  | distance (d : Float) : Template ("t.forward(" ++ coordinate d ++ ")")

/-- The line that holds a layer's name. -/
def nameLine (name : String) : String := "# " ++ Text.oneLine name

theorem unbroken_of_isColor {color : String} (h : Check.isColor color = true) :
    Text.Unbroken color.toList := by
  unfold Check.isColor at h
  split at h
  · next digits hcolor =>
    have hdigits := List.all_eq_true.1 (Bool.and_eq_true_iff.1 h).2
    rw [hcolor]
    exact Text.unbroken_cons.2 ⟨rfl, Text.unbroken_of_forall rfl hdigits⟩
  · cases h

theorem Template.unbroken {line : String} (h : Template line) : Text.Unbroken line.toList := by
  cases h with
  | fixed h =>
    revert line
    decide +kernel
  | background h | color h => exact Text.unbroken_filled (by decide) (unbroken_of_isColor h) (by decide)
  | size x y =>
    refine Text.unbroken_filled ?_ (unbroken_literal y) (by decide)
    exact Text.unbroken_filled (by decide) (unbroken_literal x) (by decide)
  | position x y =>
    refine Text.unbroken_filled ?_ (unbroken_coordinate y) (by decide)
    exact Text.unbroken_filled (by decide) (unbroken_coordinate x) (by decide)
  | speed n =>
    have hn := Layout.unbroken_of_isWritten (Layout.isWritten_toString n)
    exact Text.unbroken_filled (by decide) hn (by decide)
  | width x => exact Text.unbroken_filled (by decide) (unbroken_literal x) (by decide)
  | heading x | distance x => exact Text.unbroken_filled (by decide) (unbroken_coordinate x) (by decide)

theorem unbroken_nameLine (name : String) : Text.Unbroken (nameLine name).toList := by
  rw [nameLine, String.toList_append]
  exact Text.unbroken_append.2 ⟨by decide, Text.unbroken_oneLine name⟩

/-! ## Operations -/

/-- The number of lines that express an operation of a kind. -/
def lineCount : Kind → Nat
  | .setupScreen | .createTurtle => 3
  | _ => 1

/-- The operation is expressed by lines of the known forms, and by no text of
the document but the names of visible layers. -/
structure Expressed (layers : List Layer) (op : Operation) : Prop where
  length : op.lines.length = lineCount op.kind
  form : ∀ line ∈ op.lines, Template line ∨
    ∃ layer ∈ layers, layer.visible.value = true ∧ line = nameLine layer.name

theorem Expressed.unbroken {layers : List Layer} {op : Operation} (h : Expressed layers op) :
    ∀ line ∈ op.lines, Text.Unbroken line.toList := by
  intro line hline
  rcases h.form line hline with hform | ⟨layer, -, -, rfl⟩
  · exact hform.unbroken
  · exact unbroken_nameLine layer.name

/-- An operation of one line, which is of a known form. -/
theorem Expressed.of_line {layers : List Layer} {op : Operation} {line : String}
    (hlines : op.lines = [line]) (hcount : lineCount op.kind = 1) (h : Template line) :
    Expressed layers op := by
  constructor
  · rw [hlines, hcount]
    rfl
  · rw [hlines]
    exact List.forall_mem_singleton.2 (.inl h)

theorem expressed_comment {layers : List Layer} {layer : Layer} (hlayer : layer ∈ layers)
    (hvisible : layer.visible.value = true) : Expressed layers (.comment layer.name) :=
  ⟨rfl, List.forall_mem_singleton.2 (.inr ⟨layer, hlayer, hvisible, rfl⟩)⟩

theorem expressed_strokeOps (layers : List Layer) {stroke : Stroke} (h : stroke.Valid) (pen : Pen)
    (start : Point Float) (points : List (Point Float)) :
    ∀ op ∈ strokeOps pen stroke start points, Expressed layers op := by
  intro op hop
  rcases mem_strokeOps hop with hop | ⟨s, rfl | rfl⟩
  · simp only [List.mem_cons, List.not_mem_nil, or_false] at hop
    rcases hop with rfl | rfl | rfl | rfl | rfl | rfl
    · exact .of_line rfl rfl (.fixed (by decide))
    · exact .of_line rfl rfl (.position start.x start.y)
    · exact .of_line rfl rfl (.color h.color)
    · exact .of_line rfl rfl (.width stroke.width)
    · exact .of_line rfl rfl (.fixed (by decide))
    · exact .of_line rfl rfl (.fixed (by decide))
  · exact .of_line rfl rfl (.heading _)
  · exact .of_line rfl rfl (.distance _)

theorem expressed_header (layers : List Layer) {options : Options} (h : options.Valid) :
    ∀ op ∈ header options, Expressed layers op := by
  have hblank : Expressed layers .blank := .of_line rfl rfl (.fixed (by decide))
  intro op hop
  simp only [header, List.mem_cons, List.not_mem_nil, or_false] at hop
  rcases hop with rfl | rfl | rfl | rfl | rfl | rfl | rfl
  · exact .of_line rfl rfl (.fixed (by decide))
  · exact hblank
  · exact .of_line rfl rfl (.fixed (by decide))
  · refine ⟨rfl, fun line hline => .inl ?_⟩
    simp only [Operation.lines, List.mem_cons, List.not_mem_nil, or_false] at hline
    rcases hline with rfl | rfl | rfl
    · exact .fixed (by decide)
    · exact .background h.background
    · exact .size options.width options.height
  · exact hblank
  · refine ⟨rfl, fun line hline => .inl ?_⟩
    simp only [Operation.lines, List.mem_cons, List.not_mem_nil, or_false] at hline
    rcases hline with rfl | rfl | rfl
    · exact .fixed (by decide)
    · exact .speed options.speed
    · exact .fixed (by decide)
  · exact hblank

theorem expressed_footer (layers : List Layer) : ∀ op ∈ footer, Expressed layers op := by
  intro op hop
  rcases List.mem_pair.1 hop with rfl | rfl
  · exact .of_line rfl rfl (.fixed (by decide))
  · exact .of_line rfl rfl (.fixed (by decide))

theorem expressed_plan {options : Options} {strokes : List Stroke} (layers : List Layer)
    (hoptions : options.Valid) (hstrokes : ∀ stroke ∈ strokes, stroke.Valid) :
    ∀ op ∈ (plan options strokes layers).program, Expressed layers op := by
  have hitems : ∀ op ∈ (planItems options .start (paintOrder strokes layers)).1, Expressed layers op := by
    refine forall_mem_planItems options .start ?_ ?_
    · intro name hname
      obtain ⟨layer, hlayer, hvisible, rfl⟩ := mem_paintOrder_layer hname
      exact expressed_comment hlayer hvisible
    · intro stroke hstroke
      exact expressed_strokeOps layers (hstrokes stroke (mem_paintOrder_stroke hstroke))
  rw [program_plan]
  exact List.forall_mem_append.2
    ⟨List.forall_mem_append.2 ⟨expressed_header layers hoptions, hitems⟩, expressed_footer layers⟩

/-! ## The text -/

theorem toList_render (program : Program) :
    program.render.toList = ['\n'].intercalate ((program.flatMap Operation.lines).map String.toList) := by
  rw [Program.render, String.toList_intercalate]
  rfl

theorem getLast?_lines_plan (options : Options) (strokes : List Stroke) (layers : List Layer) :
    ((plan options strokes layers).program.flatMap Operation.lines).getLast? = some "turtle.done()" := by
  rw [program_plan, List.flatMap_append, List.getLast?_append]
  rfl

/-- **No text of a document escapes its line**: the line feeds that join the
lines are the only line boundaries, the lines are those of the operations in
order, and those that are not of a known form hold a layer's name as a comment. -/
theorem render_plan (options : Options) (strokes : List Stroke) (layers : List Layer)
    (hoptions : options.Valid) (hstrokes : ∀ stroke ∈ strokes, stroke.Valid) :
    (∀ c ∈ (plan options strokes layers).program.render.toList,
        Text.isLineBreak c = true → c = '\n') ∧
      Text.lines (plan options strokes layers).program.render.toList =
        ((plan options strokes layers).program.flatMap Operation.lines).map String.toList ∧
      ∀ op ∈ (plan options strokes layers).program, Expressed layers op := by
  have hexpressed := expressed_plan layers hoptions hstrokes
  have hunbroken : ∀ l ∈ ((plan options strokes layers).program.flatMap Operation.lines).map String.toList,
      Text.Unbroken l := by
    intro l hl
    obtain ⟨line, hline, rfl⟩ := List.mem_map.1 hl
    obtain ⟨op, hop, hline⟩ := List.mem_flatMap.1 hline
    exact (hexpressed op hop).unbroken line hline
  rw [toList_render]
  refine ⟨?_, ?_, hexpressed⟩
  · intro c hc hbreak
    rcases Text.mem_of_mem_intercalate hc with hc | ⟨l, hl, hc⟩
    · exact List.mem_singleton.1 hc
    · exact absurd hbreak (by simp [hunbroken l hl c hc])
  · refine Text.lines_intercalate hunbroken ?_
    rw [List.getLast?_map, getLast?_lines_plan]
    decide

/-- A layer's name of two lines is a comment of one. -/
theorem render_plan_sample :
    sampleOptions.Valid ∧ (∀ stroke ∈ sampleStrokes, stroke.Valid) ∧
      Text.lines (plan sampleOptions sampleStrokes sampleLayers).program.render.toList =
        ((plan sampleOptions sampleStrokes sampleLayers).program.flatMap Operation.lines).map String.toList ∧
      nameLine "Under\nneath" = "# Under neath" := by
  have hoptions : sampleOptions.Valid := by decide +kernel
  have hstrokes : ∀ stroke ∈ sampleStrokes, stroke.Valid := by decide +kernel
  have hrender := render_plan sampleOptions sampleStrokes sampleLayers hoptions hstrokes
  exact ⟨hoptions, hstrokes, hrender.2.1, by decide +kernel⟩

end SketchTurtle.Turtle
