/-
What a program draws.

A machine runs a program with a pen that is up or down and has a colour and a
width, unless nothing has set them yet. Its record is the moves it makes, each
with the ink in force. Setting only what differs from the running pen leaves
the record as it is:

* `Machine.Follows`: the machine has what the running pen of a plan says.
  Every item keeps this, because an elided setting is the one in force.
* `record_plan`: the record of a plan is that of the program that sets colour
  and width for every stroke, and each move of a stroke has the stroke's ink.
-/
import SketchTurtle.Proofs.Number.Order
import SketchTurtle.Proofs.Sketch.Valid
import SketchTurtle.Proofs.Turtle.PaintOrder

namespace SketchTurtle.Turtle

/-! ## Machines -/

/-- The state of a pen: whether it is down, and its colour and its width, if
they are known. -/
structure Machine where
  down : Bool
  color : Option String
  width : Option Float

/-- Whether an operation moves the turtle or turns it. -/
def Operation.isMove : Operation → Bool
  | .goTo .. | .setHeading _ | .forward _ => true
  | _ => false

/-- A move, and the colour and the width in force if the pen is down. -/
structure Move where
  op : Operation
  ink : Option (Option String × Option Float)

namespace Machine

def step (m : Machine) : Operation → Machine
  | .penUp => { m with down := false }
  | .penDown => { m with down := true }
  | .penColor color => { m with color := some color }
  | .penSize width => { m with width := some width }
  | _ => m

def run (m : Machine) (program : Program) : Machine := program.foldl step m

/-- What the pen leaves behind when it moves. -/
def ink (m : Machine) : Option (Option String × Option Float) :=
  if m.down then some (m.color, m.width) else none

/-- The moves of a run, each with its ink. -/
def record (m : Machine) : Program → List Move
  | [] => []
  | op :: rest => if op.isMove then ⟨op, m.ink⟩ :: (m.step op).record rest else (m.step op).record rest

theorem run_append (m : Machine) (program more : Program) :
    m.run (program ++ more) = (m.run program).run more := List.foldl_append

theorem record_append (m : Machine) (program more : Program) :
    m.record (program ++ more) = m.record program ++ (m.run program).record more := by
  induction program generalizing m with
  | nil => rfl
  | cons op rest ih =>
    have hrun : m.run (op :: rest) = (m.step op).run rest := rfl
    rw [List.cons_append, record, record, ih, hrun]
    split
    · rfl
    · rfl

theorem step_of_isMove (m : Machine) {op : Operation} (h : op.isMove = true) : m.step op = m := by
  cases op <;> first | rfl | cases h

/-- Moves leave the machine's pen alone, so they all have the same ink. -/
theorem run_of_isMove (m : Machine) {ops : Program} (h : ∀ op ∈ ops, op.isMove = true) :
    m.run ops = m := by
  induction ops with
  | nil => rfl
  | cons op rest ih =>
    show (m.step op).run rest = m
    rw [m.step_of_isMove (h op List.mem_cons_self)]
    exact ih fun op hop => h op (List.mem_cons_of_mem _ hop)

theorem record_of_isMove (m : Machine) {ops : Program} (h : ∀ op ∈ ops, op.isMove = true) :
    m.record ops = ops.map (⟨·, m.ink⟩) := by
  induction ops with
  | nil => rfl
  | cons op rest ih =>
    have hop := h op List.mem_cons_self
    rw [record, m.step_of_isMove hop, if_pos hop, List.map_cons,
      ih fun op hop => h op (List.mem_cons_of_mem _ hop)]

end Machine

theorem isMove_of_mem_segmentOps {parts : List (Point Float × Point Float)} {op : Operation}
    (h : op ∈ parts.flatMap segmentOps) : op.isMove = true := by
  obtain ⟨s, rfl | rfl⟩ := mem_segmentOps h
  · rfl
  · rfl

/-! ## Strokes -/

/-- The operations that draw through points after those that set the pen. -/
def trace (set : List Operation) (start : Point Float) (points : List (Point Float)) : Program :=
  .penUp :: .goTo start.x start.y :: set ++
    .penDown :: ((segments points).filter isDrawn).flatMap segmentOps ++ [.blank]

/-- The moves that draw a stroke: lifted to where it begins, then along its
outline in its own ink. -/
def strokeMoves (options : Options) (stroke : Stroke) : List Move :=
  match outline options stroke with
  | [] => []
  | points@(start :: _) =>
    ⟨.goTo start.x start.y, none⟩ ::
      (((segments points).filter isDrawn).flatMap segmentOps).map
        (⟨·, some (some stroke.color, some stroke.width)⟩)

/-- Operations that set the pen of a machine to a stroke's. -/
structure Sets (m : Machine) (stroke : Stroke) (set : List Operation) : Prop where
  record : ∀ down, Machine.record { m with down } set = []
  run : ∀ down, Machine.run { m with down } set = ⟨down, some stroke.color, some stroke.width⟩

theorem Sets.run_trace {m : Machine} {stroke : Stroke} {set : List Operation} (h : Sets m stroke set)
    (start : Point Float) (points : List (Point Float)) :
    m.run (trace set start points) = ⟨true, some stroke.color, some stroke.width⟩ := by
  have hset : m.run (.penUp :: .goTo start.x start.y :: set) =
      ⟨false, some stroke.color, some stroke.width⟩ := h.run false
  have hmoves : Machine.run ⟨true, some stroke.color, some stroke.width⟩
      (((segments points).filter isDrawn).flatMap segmentOps) =
        ⟨true, some stroke.color, some stroke.width⟩ :=
    Machine.run_of_isMove _ fun _ => isMove_of_mem_segmentOps
  rw [trace, Machine.run_append, Machine.run_append, hset]
  show (Machine.run ⟨true, some stroke.color, some stroke.width⟩ _).run [.blank] = _
  rw [hmoves]
  rfl

theorem Sets.record_trace {m : Machine} {stroke : Stroke} {set : List Operation}
    (h : Sets m stroke set) {options : Options} {start : Point Float} {others : List (Point Float)}
    (houtline : outline options stroke = start :: others) :
    m.record (trace set start (outline options stroke)) = strokeMoves options stroke := by
  have hrun : m.run (.penUp :: .goTo start.x start.y :: set) =
      ⟨false, some stroke.color, some stroke.width⟩ := h.run false
  have hset : m.record (.penUp :: .goTo start.x start.y :: set) = [⟨.goTo start.x start.y, none⟩] :=
    congrArg (List.cons _) (h.record false)
  have hmoves := Machine.record_of_isMove ⟨true, some stroke.color, some stroke.width⟩
    fun _ => @isMove_of_mem_segmentOps ((segments (outline options stroke)).filter isDrawn) _
  rw [trace, Machine.record_append, Machine.record_append, hset, Machine.run_append, hrun]
  show [_] ++ Machine.record ⟨true, some stroke.color, some stroke.width⟩ _ ++ [] = _
  rw [hmoves, strokeMoves, houtline]
  simp [Machine.ink]

/-! ## The program that elides nothing -/

/-- The operations that set colour and width, whatever is in force. -/
def plainPenOps (stroke : Stroke) : List Operation := [.penColor stroke.color, .penSize stroke.width]

/-- Plans one stroke by itself. -/
def planStrokePlainly (options : Options) (stroke : Stroke) : Program :=
  match outline options stroke with
  | points@(start :: _ :: _) => trace (plainPenOps stroke) start points
  | _ => []

/-- The program that sets colour and width for every stroke it draws. -/
def planPlainly (options : Options) (strokes : List Stroke) (layers : List Layer) : Program :=
  header options ++
    (layers.flatMap fun layer =>
      let own := strokes.filter (·.layer == layer.id)
      if !layer.visible.value || own.isEmpty then []
      else .comment layer.name :: own.flatMap (planStrokePlainly options)) ++
    footer

def planItemPlainly (options : Options) : Item → Program
  | .layer name => [.comment name]
  | .stroke stroke => planStrokePlainly options stroke

theorem planPlainly_eq (options : Options) (strokes : List Stroke) (layers : List Layer) :
    planPlainly options strokes layers =
      header options ++ (paintOrder strokes layers).flatMap (planItemPlainly options) ++ footer := by
  have hlayer : ∀ layer : Layer, (layerItems strokes layer).flatMap (planItemPlainly options) =
      let own := strokes.filter (·.layer == layer.id)
      if !layer.visible.value || own.isEmpty then []
      else .comment layer.name :: own.flatMap (planStrokePlainly options) := by
    intro layer
    simp only [layerItems]
    split
    · rfl
    · rw [List.flatMap_cons, List.flatMap_map]
      rfl
  rw [planPlainly, paintOrder, List.flatMap_assoc]
  simp only [hlayer]

theorem sets_plainPenOps (m : Machine) (stroke : Stroke) : Sets m stroke (plainPenOps stroke) :=
  ⟨fun _ => rfl, fun _ => rfl⟩

theorem planStrokePlainly_of_not (options : Options) {stroke : Stroke} (h : isDrawable stroke = false) :
    planStrokePlainly options stroke = [] := by
  have hlength := length_outline_lt options h
  rw [planStrokePlainly]
  split
  · next houtline =>
    simp only [houtline, List.length_cons] at hlength
    omega
  · rfl

theorem record_planItemPlainly (m : Machine) (options : Options) (item : Item) :
    m.record (planItemPlainly options item) = item.drawn?.toList.flatMap (strokeMoves options) := by
  cases item with
  | layer name => rfl
  | stroke stroke =>
    cases h : isDrawable stroke with
    | false =>
      simp only [planItemPlainly, planStrokePlainly_of_not options h, Item.drawn?, h]
      rfl
    | true =>
      obtain ⟨first, rest, second, others, -, houtline⟩ := exists_outline_eq options h
      have hrecord := (sets_plainPenOps m stroke).record_trace houtline
      rw [houtline] at hrecord
      simp only [planItemPlainly, planStrokePlainly, houtline, hrecord, Item.drawn?, h, if_true,
        Option.toList_some, List.flatMap_singleton]

theorem record_planItemsPlainly (m : Machine) (options : Options) (items : List Item) :
    m.record (items.flatMap (planItemPlainly options)) =
      (items.filterMap Item.drawn?).flatMap (strokeMoves options) := by
  induction items generalizing m with
  | nil => rfl
  | cons item rest ih =>
    rw [List.flatMap_cons, Machine.record_append, record_planItemPlainly, ih, filterMap_drawn?_cons,
      List.flatMap_append]

/-! ## The running pen -/

/-- The machine has what the running pen says, once a stroke has set it. -/
structure Machine.Follows (m : Machine) (pen : Pen) : Prop where
  color : pen.color ≠ "" → m.color = some pen.color
  width : 0 < pen.width → m.width = some pen.width

theorem Machine.follows_start (m : Machine) : m.Follows .start :=
  ⟨fun h => absurd rfl h, fun h => absurd h (by decide)⟩

/-- What an elided setting would set is in force already. -/
theorem Machine.Follows.sets_penOps {m : Machine} {pen : Pen} {stroke : Stroke}
    (h : m.Follows pen) (hstroke : stroke.Valid) : Sets m stroke (penOps pen stroke) := by
  have hcolor : (stroke.color != pen.color) = false → m.color = some stroke.color := by
    intro heq
    have heq : stroke.color = pen.color := by simpa using heq
    have hne := Check.ne_empty_of_isColor hstroke.color
    rw [heq] at hne ⊢
    exact h.color hne
  have hwidth : (stroke.width != pen.width) = false → m.width = some stroke.width := by
    intro heq
    have heq : (stroke.width == pen.width) = true := by simpa [bne] using heq
    have heq : stroke.width = pen.width := Exact.eq_of_beq hstroke.width heq
    have hpos := hstroke.width
    rw [heq] at hpos ⊢
    exact h.width hpos
  rw [penOps]
  cases hc : stroke.color != pen.color with
  | true =>
    cases hw : stroke.width != pen.width with
    | true => exact ⟨fun _ => rfl, fun _ => rfl⟩
    | false =>
      refine ⟨fun _ => rfl, fun down => ?_⟩
      show Machine.mk down (some stroke.color) m.width = _
      rw [hwidth hw]
  | false =>
    cases hw : stroke.width != pen.width with
    | true =>
      refine ⟨fun _ => rfl, fun down => ?_⟩
      show Machine.mk down m.color (some stroke.width) = _
      rw [hcolor hc]
    | false =>
      refine ⟨fun _ => rfl, fun down => ?_⟩
      show Machine.mk down m.color m.width = _
      rw [hcolor hc, hwidth hw]

/-- Planning an item draws its stroke in the stroke's own ink, and the machine has
the pen that runs from then on. -/
theorem Machine.Follows.record_planItem {m : Machine} {progress : Progress} (options : Options) {item : Item}
    (h : m.Follows progress.pen) (hitem : ∀ stroke, item = .stroke stroke → stroke.Valid) :
    m.record (planItem options progress item).1 = item.drawn?.toList.flatMap (strokeMoves options) ∧
      (m.run (planItem options progress item).1).Follows (planItem options progress item).2.pen := by
  cases item with
  | layer name => exact ⟨rfl, h⟩
  | stroke stroke =>
    cases hdrawable : isDrawable stroke with
    | false =>
      simp only [planItem, planStroke_of_not options progress hdrawable, Item.drawn?, hdrawable]
      exact ⟨rfl, h⟩
    | true =>
      obtain ⟨first, rest, second, others, -, houtline⟩ := exists_outline_eq options hdrawable
      obtain ⟨hops, hpen⟩ := planStroke_of_outline progress houtline
      have hsets := h.sets_penOps (hitem stroke rfl)
      rw [planItem, hops, hpen]
      constructor
      · rw [Item.drawn?, if_pos hdrawable, Option.toList_some, List.flatMap_singleton]
        exact hsets.record_trace houtline
      · have hrun := hsets.run_trace (first.toTurtle options.width options.height) (outline options stroke)
        rw [trace] at hrun
        rw [strokeOps, hrun]
        exact ⟨fun _ => rfl, fun _ => rfl⟩

theorem Machine.Follows.record_planItems {m : Machine} {progress : Progress} (options : Options)
    {items : List Item} (h : m.Follows progress.pen)
    (hitems : ∀ stroke, .stroke stroke ∈ items → stroke.Valid) :
    m.record (planItems options progress items).1 =
      (items.filterMap Item.drawn?).flatMap (strokeMoves options) := by
  induction items generalizing m progress with
  | nil => rfl
  | cons item rest ih =>
    obtain ⟨hrecord, hfollows⟩ := h.record_planItem options fun stroke hs => hitems stroke (hs ▸ List.mem_cons_self)
    have hrest := ih hfollows fun stroke hs => hitems stroke (List.mem_cons_of_mem _ hs)
    rw [planItems, record_append, hrecord, hrest, filterMap_drawn?_cons, List.flatMap_append]

/-- **Planning draws what the plain program draws**: each stroke that is drawn,
in order, and in its own ink. -/
theorem record_plan (start : Machine) (options : Options) (strokes : List Stroke) (layers : List Layer)
    (h : ∀ stroke ∈ strokes, stroke.Valid) :
    start.record (plan options strokes layers).program =
        start.record (planPlainly options strokes layers) ∧
      start.record (plan options strokes layers).program =
        (drawn strokes layers).flatMap fun part => strokeMoves options part.2 := by
  have hmoves : start.record (plan options strokes layers).program =
      ((paintOrder strokes layers).filterMap Item.drawn?).flatMap (strokeMoves options) := by
    rw [program_plan, Machine.record_append, Machine.record_append]
    show [] ++ Machine.record start _ ++ [] = _
    rw [start.follows_start.record_planItems options fun stroke hs => h stroke (mem_paintOrder_stroke hs),
      List.nil_append, List.append_nil]
  have hplain : start.record (planPlainly options strokes layers) =
      ((paintOrder strokes layers).filterMap Item.drawn?).flatMap (strokeMoves options) := by
    rw [planPlainly_eq, Machine.record_append, Machine.record_append]
    show [] ++ Machine.record start _ ++ [] = _
    rw [record_planItemsPlainly, List.nil_append, List.append_nil]
  refine ⟨hmoves.trans hplain.symm, ?_⟩
  rw [hmoves, filterMap_drawn?_paintOrder, List.flatMap_map]

/-- One setting of the colour where the plain program has two. -/
theorem record_plan_sample :
    (∀ stroke ∈ sampleStrokes, stroke.Valid) ∧
      Machine.record ⟨true, none, none⟩ (plan sampleOptions sampleStrokes sampleLayers).program =
        Machine.record ⟨true, none, none⟩ (planPlainly sampleOptions sampleStrokes sampleLayers) ∧
      (plan sampleOptions sampleStrokes sampleLayers).program.count .penColor = 1 ∧
      Program.count .penColor (planPlainly sampleOptions sampleStrokes sampleLayers) = 2 := by
  have hvalid : ∀ stroke ∈ sampleStrokes, stroke.Valid := by decide +kernel
  have hrecord := record_plan ⟨true, none, none⟩ sampleOptions sampleStrokes sampleLayers hvalid
  exact ⟨hvalid, hrecord.1, by decide +kernel, by decide +kernel⟩

end SketchTurtle.Turtle
