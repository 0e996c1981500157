/-
Projects that are worked on: what holds of them however they came about.

A project comes from a document or is new, and then layers are taken away from
it, and it is saved and loaded, in any order (`Project.Reachable`). Taking a
layer away checks nothing, but what it leaves was there before
(`Project.Valid.removeLayer`); so all parts stay within their bounds
(`Project.Reachable.valid`). The bounds of the settings are those of options,
so a valid project makes options for every canvas and tolerance that are
acceptable themselves (`Project.Valid.options_eq`).
-/
import SketchTurtle.Proofs.Number.Order
import SketchTurtle.Proofs.Sketch.Bounds
import SketchTurtle.Proofs.Sketch.Saving

namespace SketchTurtle

/-! ## Colours -/

/-- A digit of a hexadecimal number. -/
def IsHexDigit (c : Char) : Prop := ('0' ≤ c ∧ c ≤ '9') ∨ ('a' ≤ c ∧ c ≤ 'f') ∨ ('A' ≤ c ∧ c ≤ 'F')

/-- A number sign and six hexadecimal digits. -/
def IsHexColor (s : String) : Prop :=
  ∃ digits : List Char, s.toList = '#' :: digits ∧ digits.length = 6 ∧ ∀ c ∈ digits, IsHexDigit c

theorem Check.isColor_iff {s : String} : isColor s = true ↔ IsHexColor s := by
  unfold isColor IsHexColor
  split
  · next digits h => simp [h, IsHexDigit, Char.isDigit, Char.le_def, or_assoc]
  · next h =>
    simp only [Bool.false_eq_true, false_iff]
    rintro ⟨digits, hdigits, -⟩
    exact h digits hdigits

/-! ## Options of a project -/

/-- What is wrong with a canvas and a tolerance. -/
def canvasFaults (width height tolerance : Float) : List Fault :=
  Fault.unmet "canvas_width" (.notAbove 0) (0 < width) ++ Fault.unmet "canvas_height" (.notAbove 0) (0 < height) ++
    Fault.unmet "simplify_tolerance" (.below 0) (0 ≤ tolerance)

theorem canvasFaults_eq_nil_iff {width height tolerance : Float} :
    canvasFaults width height tolerance = [] ↔ 0 < width ∧ 0 < height ∧ 0 ≤ tolerance := by
  simp only [canvasFaults, List.append_eq_nil_iff, Fault.unmet_eq_nil_iff, decide_eq_true_eq, and_assoc]

namespace Project

/-- A valid project is no reason to refuse options: they are made, barring the
faults of the canvas and the tolerance. -/
theorem Valid.options_eq {p : Project} (h : p.Valid) (width height tolerance : Float) :
    p.options (.float width) (.float height) (.float tolerance) =
      .barring (canvasFaults width height tolerance)
        ⟨width, height, p.settings.value.speed.value, .of p.settings.value.background.value, .of tolerance⟩ := by
  have hspeed : Fault.ofSpeed p.settings.value.speed.value = [] := Fault.ofSpeed_eq_nil_iff.2 h.settings.speed
  have hbackground : Fault.unmet "background_color" .notColor (Check.isColor p.settings.value.background.value) = [] :=
    Fault.unmet_eq_nil_iff.2 h.settings.background
  rw [options, Options.ofValues_eq]
  simp only [Options.faults, Slot.of, hspeed, hbackground, List.append_nil]
  rfl

/-! ## Reachable projects -/

/-- What remains when a layer is taken away was valid before. -/
theorem Valid.removeLayer {p : Project} (h : p.Valid) (layer : String) (now : Int) :
    (p.removeLayer layer now).Valid where
  layers l hl := h.layers l (List.mem_of_mem_filter hl)
  strokes s hs := h.strokes s (List.mem_of_mem_filter hs)
  settings := h.settings

/-- The projects that arise from documents and new ones, when layers are taken
away and projects are saved and loaded again. -/
inductive Reachable : Project → Prop where
  | built {p : Project} (h : p.Built) : Reachable p
  | removed {p : Project} (h : Reachable p) (layer : String) (now : Int) : Reachable (p.removeLayer layer now)
  | reloaded {p q : Project} (h : Reachable p) {document : Json} {freshId : String} {now : Int}
      (hread : Json.read p.toText = .ok document) (hparse : parse freshId now document = .ok q) : Reachable q

namespace Reachable

theorem valid {p : Project} (h : p.Reachable) : p.Valid := by
  induction h with
  | built h => exact h.valid
  | removed _ layer now ih => exact ih.removeLayer layer now
  | reloaded _ _ hparse _ => exact valid_of_ofDocument (parse_eq_ok.1 hparse)

/-- **A project never leaves its bounds, and never stands in the way of
options**: they are made if the canvas and the tolerance are acceptable, which
no value is that is no number, and refused for the canvas and the tolerance
alone. -/
theorem within_bounds {p : Project} (h : p.Reachable) :
    (∀ l ∈ p.layers.value, l.id ≠ "") ∧
      (∀ s ∈ p.strokes.value, s.id ≠ "" ∧ 0 < s.width ∧ IsHexColor s.color ∧ 0 ≤ s.speed.value ∧ s.speed.value ≤ 10) ∧
      (0 ≤ p.settings.value.speed.value ∧ p.settings.value.speed.value ≤ 10 ∧
        IsHexColor p.settings.value.background.value) ∧
      ∀ width height tolerance : Float,
        p.options (.float width) (.float height) (.float tolerance) =
            (if 0 < width ∧ 0 < height ∧ 0 ≤ tolerance then
              .ok ⟨width, height, p.settings.value.speed.value, .of p.settings.value.background.value, .of tolerance⟩
            else .faulty (canvasFaults width height tolerance)) ∧
          (0 < width ∧ 0 < height ∧ 0 ≤ tolerance →
            width.isNaN = false ∧ height.isNaN = false ∧ tolerance.isNaN = false) := by
  have hvalid := h.valid
  refine ⟨fun l hl => (hvalid.layers l hl).id, fun s hs => ?_, ?_, fun width height tolerance => ⟨?_, ?_⟩⟩
  · have hstroke := hvalid.strokes s hs
    exact ⟨hstroke.id, hstroke.width, Check.isColor_iff.1 hstroke.color, hstroke.speed⟩
  · have hsettings := hvalid.settings
    exact ⟨hsettings.speed.1, hsettings.speed.2, Check.isColor_iff.1 hsettings.background⟩
  · rw [hvalid.options_eq]
    split
    · next hcanvas => rw [canvasFaults_eq_nil_iff.2 hcanvas, Checked.barring_nil]
    · next hcanvas => rw [Checked.barring_of_ne_nil (mt canvasFaults_eq_nil_iff.1 hcanvas)]
  · rintro ⟨hwidth, hheight, htolerance⟩
    exact ⟨(Exact.isNaN_of_lt hwidth).2, (Exact.isNaN_of_lt hheight).2, (Exact.isNaN_of_le htolerance).2⟩

/-- The sample project, saved and loaded, without a layer that no stroke is on. -/
def reopened : Project := (sample 0.5 2).asGiven.removeLayer "x" 5

theorem within_bounds_reopened :
    reopened.Reachable ∧
      (∀ s ∈ reopened.strokes.value,
        s.id ≠ "" ∧ 0 < s.width ∧ IsHexColor s.color ∧ 0 ≤ s.speed.value ∧ s.speed.value ≤ 10) ∧
      reopened.options (.float 800) (.float 600) (.float 0) = .ok ⟨800, 600, 6, .of "#0a0a0a", .of 0⟩ ∧
      reopened.options (.float 0) (.float (0 / 0)) (.float 2) =
        .faulty [⟨[.name "canvas_width"], .notAbove 0⟩, ⟨[.name "canvas_height"], .notAbove 0⟩] := by
  have hbuilt : (sample 0.5 2).Built := .inl ⟨_, _, _, parse_sampleDocument 0.5 2⟩
  have hfinite : (sample 0.5 2).IsFinite := isFinite_sample.2 ⟨by decide, by decide⟩
  obtain ⟨document, hread, hparse⟩ : ∃ document, Json.read (sample 0.5 2).toText = .ok document ∧
      parse "q" 1 document = .ok (sample 0.5 2).asGiven :=
    (reload_eq_ok hbuilt.valid).2 ⟨⟨hfinite, isLongInt_of_le (by decide)⟩, rfl⟩
  have hreachable : reopened.Reachable := ((built hbuilt).reloaded hread hparse).removed "x" 5
  obtain ⟨-, hstrokes, -, hoptions⟩ := hreachable.within_bounds
  refine ⟨hreachable, hstrokes, ?_, ?_⟩
  · rw [(hoptions 800 600 0).1, if_pos (by decide)]
    rfl
  · rw [(hoptions 0 (0 / 0) 2).1, if_neg (by decide)]
    rfl

end Reachable

end Project

end SketchTurtle
