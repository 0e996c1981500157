/-
Programs of one text are alike.

The first line of an operation tells its kind (`kindOf?_lines`), and the kind tells how many lines it
takes. So in the lines of a program those of its first operation end at one place only
(`alike_of_lines_append`), and what fills them tells the operation up to what is not written of it:
the line breaks of a comment, and what rounding to hundredths drops.

Widths are compared as doubles. They are positive in a plan, though maybe infinite, and of those no
two have one literal (`literal_inj_of_pos`).
-/
import SketchTurtle.Proofs.Turtle.Literal
import SketchTurtle.Proofs.Turtle.Rendering
import Mathlib.Data.List.Basic

namespace SketchTurtle.Turtle

/-! ## Texts of numbers -/

theorem minus_notMem_digitsOf (n : Nat) : '-' ∉ Layout.digitsOf n := fun h => by
  cases Numeral.areDigits_digitsOf n '-' h

theorem signed_digitsOf_inj {a b : Bool} {m n : Nat}
    (h : Layout.signed a (Layout.digitsOf m) = Layout.signed b (Layout.digitsOf n)) : a = b ∧ m = n := by
  have hdigits {m n : Nat} (h : Layout.digitsOf m = Layout.digitsOf n) : m = n := by
    rw [← Numeral.ofDigits_digitsOf m, h, Numeral.ofDigits_digitsOf]
  have hsign {m n : Nat} : '-' :: Layout.digitsOf m ≠ Layout.digitsOf n := fun h =>
    minus_notMem_digitsOf n (h ▸ List.mem_cons_self)
  match a, b with
  | false, false => exact ⟨rfl, hdigits h⟩
  | true, true => exact ⟨rfl, hdigits (List.cons.inj h).2⟩
  | true, false => exact absurd h hsign
  | false, true => exact absurd h.symm hsign

theorem toString_inj {m n : Int} : toString m = toString n ↔ m = n := by
  refine ⟨fun h => ?_, congrArg toString⟩
  have htexts := congrArg String.toList h
  rw [Layout.toList_toString, Layout.toList_toString] at htexts
  obtain ⟨hsign, hmagnitude⟩ := signed_digitsOf_inj htexts
  rw [decide_eq_decide] at hsign
  omega

theorem ofFloat_of_pos {x : Float} (hpos : 0 < x) (hx : (Exact.ofFloat x).isFinite = false) :
    Exact.ofFloat x = .infinite false := by
  obtain ⟨a, b, hzero, hscaled, hlt⟩ := Exact.lt_iff.1 hpos
  rw [Exact.scaled_zero, Option.some.injEq] at hzero
  subst hzero
  generalize Exact.ofFloat x = exact at *
  match exact with
  | .nan => cases hscaled
  | .infinite false => rfl
  | .infinite true =>
    have hnegative : b = -Exact.beyond := (Option.some.inj hscaled).symm
    have hbeyond := Exact.beyond_pos
    omega
  | .finite .. => cases hx

/-- The literal of the infinity has characters that no finite double is written with. -/
theorem isWritten_literal_iff {x : Float} (hpos : 0 < x) :
    Layout.IsWritten (literal x).toList ↔ (Exact.ofFloat x).isFinite = true := by
  refine ⟨fun h => ?_, isWritten_literal⟩
  by_contra hnot
  rw [literal, ofFloat_of_pos hpos (eq_false_of_ne_true hnot), String.toList_ofList] at h
  exact absurd h (by decide)

/-- Positive doubles of one literal are one, infinite ones included. -/
theorem literal_inj_of_pos {x y : Float} (hx : 0 < x) (hy : 0 < y) : literal x = literal y ↔ x = y := by
  refine ⟨fun h => ?_, congrArg literal⟩
  have hsame : (Exact.ofFloat x).isFinite = true ↔ (Exact.ofFloat y).isFinite = true := by
    rw [← isWritten_literal_iff hx, h, isWritten_literal_iff hy]
  by_cases hfinite : (Exact.ofFloat x).isFinite = true
  · exact Exact.eq_of_beq hx ((literal_eq_iff hfinite (hsame.1 hfinite)).1 h)
  · have hx := ofFloat_of_pos hx (eq_false_of_ne_true hfinite)
    have hy := ofFloat_of_pos hy (eq_false_of_ne_true (mt hsame.2 hfinite))
    exact Exact.ofFloat_inj (hx.trans hy.symm) (by rw [hx]; nofun)

theorem filled_eq_iff {before after a b : String} : before ++ a ++ after = before ++ b ++ after ↔ a = b := by
  rw [String.append_left_inj, String.append_right_inj]

theorem pair_eq_iff {before after a b c d : String} (ha : ',' ∉ a.toList) (hb : ',' ∉ b.toList) :
    before ++ a ++ ", " ++ b ++ after = before ++ c ++ ", " ++ d ++ after ↔ a = c ∧ b = d := by
  have hpair : a ++ ", " ++ b = c ++ ", " ++ d ↔ a = c ∧ b = d := by
    have hrest : ',' ∉ ' ' :: b.toList := by simpa using hb
    have htexts : a ++ ", " ++ b = c ++ ", " ++ d ↔
        a.toList ++ ',' :: ' ' :: b.toList = c.toList ++ ',' :: ' ' :: d.toList := by
      simp [← String.toList_inj, String.toList_append]
    rw [htexts, List.append_cons_inj_of_notMem ha hrest]
    simp [String.toList_inj]
  simp only [← hpair, String.append_assoc, String.append_right_inj]
  simp only [← String.append_assoc, String.append_left_inj]

theorem comma_notMem_literal (x : Float) : ',' ∉ (literal x).toList := by
  rw [literal, String.toList_ofList]
  exact comma_notMem_literalOf _

theorem comma_notMem_coordinate (x : Float) : ',' ∉ (coordinate x).toList := by
  rw [coordinate, String.toList_ofList]
  exact comma_notMem_literalOf _

/-! ## Kinds of first lines -/

/-- What the first line of an operation begins with, if a line feed is put at its end. -/
def openings : List (String × Kind) :=
  [("\n", .blank), ("import ", .importTurtle), ("# ", .comment), ("screen = ", .setupScreen), ("t = ", .createTurtle),
    ("t.penup(", .penUp), ("t.pendown(", .penDown), ("t.goto(", .goTo), ("t.pencolor(", .penColor),
    ("t.pensize(", .penSize), ("t.setheading(", .setHeading), ("t.forward(", .forward), ("turtle.done(", .done)]

/-- The kind of the operation whose first line this is. -/
def kindOf? (line : String) : Option Kind :=
  (openings.find? fun opening => opening.1.toList.isPrefixOf (line.toList ++ ['\n'])).map (·.2)

/-- **The first line of an operation tells its kind.** -/
theorem kindOf?_lines {op : Operation} (h : op ≠ .bare) :
    ∃ first rest, op.lines = first :: rest ∧ kindOf? first = some op.kind := by
  cases op with
  | bare => cases h rfl
  | _ =>
    -- The line spells its opening out, and none of those before it in the list.
    refine ⟨_, _, rfl, ?_⟩
    simp only [kindOf?, String.toList_append, List.append_assoc]
    rfl

theorem length_lines {op : Operation} (h : op ≠ .bare) : op.lines.length = lineCount op.kind := by
  cases op with
  | bare => cases h rfl
  | _ => rfl

/-! ## Operations that are alike -/

namespace Operation

/-- Operations of one kind with the same speed, colours and widths, with comments that are the same
on one line, and with places, headings and distances that are written the same. -/
inductive Alike : Operation → Operation → Prop where
  | importTurtle : Alike .importTurtle .importTurtle
  | setupScreen (width height : Float) (background : String) :
    Alike (.setupScreen width height background) (.setupScreen width height background)
  | createTurtle (speed : Int) : Alike (.createTurtle speed) (.createTurtle speed)
  | comment {text other : String} (h : Text.oneLine text = Text.oneLine other) : Alike (.comment text) (.comment other)
  | blank : Alike .blank .blank
  | done : Alike .done .done
  | penUp : Alike .penUp .penUp
  | penDown : Alike .penDown .penDown
  | penColor (color : String) : Alike (.penColor color) (.penColor color)
  | penSize (width : Float) : Alike (.penSize width) (.penSize width)
  | goTo {x y u v : Float} (hx : coordinate x = coordinate u) (hy : coordinate y = coordinate v) :
    Alike (.goTo x y) (.goTo u v)
  | setHeading {angle other : Float} (h : coordinate angle = coordinate other) :
    Alike (.setHeading angle) (.setHeading other)
  | forward {distance other : Float} (h : coordinate distance = coordinate other) :
    Alike (.forward distance) (.forward other)

theorem Alike.kind_eq {op other : Operation} (h : Alike op other) : op.kind = other.kind := by
  cases h <;> rfl

theorem Alike.lines_eq {op other : Operation} (h : Alike op other) : op.lines = other.lines := by
  cases h with
  | comment h => rw [lines, lines, h]
  | goTo hx hy => rw [lines, lines, hx, hy]
  | setHeading h | forward h => rw [lines, lines, h]
  | _ => rfl

/-- The operation is of a particular kind, and what it says of widths is positive. -/
def IsSized : Operation → Prop
  | .bare => False
  | .setupScreen width height _ => 0 < width ∧ 0 < height
  | .penSize width => 0 < width
  | _ => True

theorem IsSized.ne_bare {op : Operation} (h : op.IsSized) : op ≠ .bare := by
  rintro rfl
  exact h

/-- The lines of an operation of a known kind tell the rest of it. -/
theorem alike_of_lines_eq {op other : Operation} (hop : op.IsSized) (hother : other.IsSized)
    (hkind : op.kind = other.kind) (h : op.lines = other.lines) : Alike op other := by
  -- Two operations of one kind have one constructor, so these are the cases on the diagonal.
  cases op <;> cases other <;> cases hkind
  case bare.bare => cases hop
  case setupScreen.setupScreen width height background width' height' background' =>
    simp only [lines, List.cons.injEq, and_true, true_and] at h
    have hsize := (pair_eq_iff (comma_notMem_literal width) (comma_notMem_literal height)).1 h.2
    rw [filled_eq_iff.1 h.1, (literal_inj_of_pos hop.1 hother.1).1 hsize.1,
      (literal_inj_of_pos hop.2 hother.2).1 hsize.2]
    exact .setupScreen width' height' background'
  case createTurtle.createTurtle speed speed' =>
    simp only [lines, List.cons.injEq, and_true, true_and] at h
    rw [toString_inj.1 (filled_eq_iff.1 h)]
    exact .createTurtle speed'
  case goTo.goTo x y u v =>
    have hplace := (pair_eq_iff (comma_notMem_coordinate x) (comma_notMem_coordinate y)).1 (List.cons.inj h).1
    exact .goTo hplace.1 hplace.2
  case penColor.penColor color color' =>
    rw [filled_eq_iff.1 (List.cons.inj h).1]
    exact .penColor color'
  case penSize.penSize width width' =>
    rw [(literal_inj_of_pos hop hother).1 (filled_eq_iff.1 (List.cons.inj h).1)]
    exact .penSize width'
  case comment.comment text text' => exact .comment (String.append_right_inj _ |>.1 (List.cons.inj h).1)
  case setHeading.setHeading angle angle' => exact .setHeading (filled_eq_iff.1 (List.cons.inj h).1)
  case forward.forward distance distance' => exact .forward (filled_eq_iff.1 (List.cons.inj h).1)
  all_goals constructor

end Operation

/-! ## Programs -/

open Operation (Alike IsSized)

/-- **In the lines of operations those of the first one end at one place only.** -/
theorem alike_of_lines_append {op other : Operation} {rest rest' : List String} (hop : op.IsSized)
    (hother : other.IsSized) (h : op.lines ++ rest = other.lines ++ rest') : Alike op other ∧ rest = rest' := by
  have hkind : op.kind = other.kind := by
    obtain ⟨first, more, hlines, hfirst⟩ := kindOf?_lines hop.ne_bare
    obtain ⟨first', more', hlines', hfirst'⟩ := kindOf?_lines hother.ne_bare
    rw [hlines, hlines'] at h
    rw [(List.cons.inj h).1, hfirst'] at hfirst
    exact (Option.some.inj hfirst).symm
  have hlength : op.lines.length = other.lines.length := by
    rw [length_lines hop.ne_bare, length_lines hother.ne_bare, hkind]
  obtain ⟨hlines, hrest⟩ := List.append_inj h hlength
  exact ⟨Operation.alike_of_lines_eq hop hother hkind hlines, hrest⟩

theorem lines_ne_nil {op : Operation} (h : op.IsSized) : op.lines ≠ [] := by
  obtain ⟨first, rest, hlines, -⟩ := kindOf?_lines h.ne_bare
  rw [hlines]
  exact List.cons_ne_nil first rest

theorem flatMap_lines_of_alike {program other : Program} (h : List.Forall₂ Alike program other) :
    program.flatMap Operation.lines = other.flatMap Operation.lines := by
  induction h with
  | nil => rfl
  | cons hop _ ih => rw [List.flatMap_cons, List.flatMap_cons, hop.lines_eq, ih]

theorem kinds_of_alike {program other : Program} (h : List.Forall₂ Alike program other) :
    program.map Operation.kind = other.map Operation.kind := by
  induction h with
  | nil => rfl
  | cons hop _ ih => rw [List.map_cons, List.map_cons, hop.kind_eq, ih]

theorem alike_of_flatMap_lines {program other : Program} (hprogram : ∀ op ∈ program, op.IsSized)
    (hother : ∀ op ∈ other, op.IsSized) (h : program.flatMap Operation.lines = other.flatMap Operation.lines) :
    List.Forall₂ Alike program other := by
  induction program generalizing other with
  | nil =>
    cases other with
    | nil => exact .nil
    | cons op rest =>
      exact absurd (List.append_eq_nil_iff.1 h.symm).1 (lines_ne_nil (hother op List.mem_cons_self))
  | cons op rest ih =>
    obtain ⟨hop, hrest⟩ := List.forall_mem_cons.1 hprogram
    cases other with
    | nil => exact absurd (List.append_eq_nil_iff.1 h).1 (lines_ne_nil hop)
    | cons op' rest' =>
      obtain ⟨hop', hrest'⟩ := List.forall_mem_cons.1 hother
      obtain ⟨halike, hmore⟩ := alike_of_lines_append hop hop' h
      exact .cons halike (ih hrest hrest' hmore)

/-! ## Plans -/

theorem isSized_plan {options : Options} (hoptions : options.Valid) {strokes : List Stroke}
    (hstrokes : ∀ stroke ∈ strokes, stroke.Valid) (layers : List Layer) :
    ∀ op ∈ (plan options strokes layers).program, op.IsSized := by
  have hheader : ∀ op ∈ header options, op.IsSized := by
    simp [header, Operation.IsSized, hoptions.width, hoptions.height]
  have hfooter : ∀ op ∈ footer, op.IsSized := by simp [footer, Operation.IsSized]
  have hitems : ∀ op ∈ (planItems options .start (paintOrder strokes layers)).1, op.IsSized := by
    refine forall_mem_planItems options .start (fun _ _ => trivial) fun stroke hstroke pen start points op hop => ?_
    have hwidth := (hstrokes stroke (mem_paintOrder_stroke hstroke)).width
    rcases mem_strokeOps hop with hop | ⟨s, rfl | rfl⟩
    · simp only [List.mem_cons, List.not_mem_nil, or_false] at hop
      rcases hop with rfl | rfl | rfl | rfl | rfl | rfl
      case inr.inr.inr.inl => exact hwidth
      all_goals trivial
    · trivial
    · trivial
  rw [program_plan]
  exact List.forall_mem_append.2 ⟨List.forall_mem_append.2 ⟨hheader, hitems⟩, hfooter⟩

/-- The lines of a plan are found again in its text. -/
theorem lines_toList_render {options : Options} (hoptions : options.Valid) {strokes : List Stroke}
    (hstrokes : ∀ stroke ∈ strokes, stroke.Valid) (layers : List Layer) :
    Text.lines (plan options strokes layers).program.render.toList =
      ((plan options strokes layers).program.flatMap Operation.lines).map String.toList := by
  rw [toList_render]
  refine Text.lines_intercalate (List.forall_mem_map.2 fun line hline => ?_) ?_
  · obtain ⟨op, hop, hline⟩ := List.mem_flatMap.1 hline
    exact (expressed_plan layers hoptions hstrokes op hop).unbroken line hline
  · rw [List.getLast?_map, getLast?_lines_plan]
    decide

/-- **Plans of one text are alike**, operation by operation, and no others are. -/
theorem render_unambiguous {options options' : Options} (hoptions : options.Valid) (hoptions' : options'.Valid)
    {strokes strokes' : List Stroke} (hstrokes : ∀ stroke ∈ strokes, stroke.Valid)
    (hstrokes' : ∀ stroke ∈ strokes', stroke.Valid) (layers layers' : List Layer) :
    ((plan options strokes layers).program.render = (plan options' strokes' layers').program.render ↔
      List.Forall₂ Operation.Alike (plan options strokes layers).program (plan options' strokes' layers').program) ∧
    ((plan options strokes layers).program.render = (plan options' strokes' layers').program.render →
      (plan options strokes layers).program.map Operation.kind =
        (plan options' strokes' layers').program.map Operation.kind) := by
  have halike (h : (plan options strokes layers).program.render = (plan options' strokes' layers').program.render) :
      List.Forall₂ Alike (plan options strokes layers).program (plan options' strokes' layers').program := by
    have htexts := congrArg (fun text : String => Text.lines text.toList) h
    simp only [lines_toList_render hoptions hstrokes, lines_toList_render hoptions' hstrokes'] at htexts
    have hlines := (List.map_inj_right fun _ _ => String.toList_inj.1).1 htexts
    exact alike_of_flatMap_lines (isSized_plan hoptions hstrokes layers)
      (isSized_plan hoptions' hstrokes' layers') hlines
  refine ⟨⟨halike, fun h => ?_⟩, fun h => kinds_of_alike (halike h)⟩
  rw [Program.render, flatMap_lines_of_alike h, Program.render]

/-- A dot of endless width. -/
def dotStrokes (x : Float) : List Stroke :=
  [⟨"a", "under", "#ff0000", 1 / 0, .of 6, .of [⟨x, 0⟩, ⟨x, 0⟩], true⟩]

/-- A dot that lies a thousandth further, on a layer whose name takes two lines. -/
theorem render_unambiguous_sample :
    sampleOptions.Valid ∧ (∀ stroke ∈ dotStrokes 0, stroke.Valid) ∧ (∀ stroke ∈ dotStrokes 0.001, stroke.Valid) ∧
      List.Forall₂ Operation.Alike (plan sampleOptions (dotStrokes 0) [⟨"under", "Under neath", .of true, true⟩]).program
        (plan sampleOptions (dotStrokes 0.001) [⟨"under", "Under\nneath", .of true, true⟩]).program := by
  have hoptions : sampleOptions.Valid := by decide +kernel
  have hstrokes : ∀ stroke ∈ dotStrokes 0, stroke.Valid := by decide +kernel
  have hstrokes' : ∀ stroke ∈ dotStrokes 0.001, stroke.Valid := by decide +kernel
  have hrender : (plan sampleOptions (dotStrokes 0) [⟨"under", "Under neath", .of true, true⟩]).program.render =
      (plan sampleOptions (dotStrokes 0.001) [⟨"under", "Under\nneath", .of true, true⟩]).program.render := by
    decide +kernel
  exact ⟨hoptions, hstrokes, hstrokes', (render_unambiguous hoptions hoptions hstrokes hstrokes' _ _).1.1 hrender⟩

end SketchTurtle.Turtle
