/-
What is left of a project when layers are taken away one after the other.

A removal filters two lists, the layers by their identifier and the strokes by the
layer that they are on. Filters add up, so a run of removals is one removal of all
that it names, at the time of the last one (`removeLayers_eq`). Which layers and
strokes are left depends on the set of names alone, and since both lists lose the
same names, a project whose strokes are all on layers stays one
(`Anchored.without`).
-/
import SketchTurtle.Sketch.Project
import Mathlib.Data.List.Basic

namespace SketchTurtle.Project

/-- A run of removals, each with its layer and its time. -/
def removeLayers (p : Project) (removals : List (String × Int)) : Project :=
  removals.foldl (fun p removal => p.removeLayer removal.1 removal.2) p

/-- The project without some layers and without the strokes on them. -/
def without (p : Project) (names : List String) (now : Int) : Project :=
  { p with
    layers := .of (p.layers.value.filter (·.id ∉ names))
    strokes := .of (p.strokes.value.filter fun s => ∀ name ∈ names, ¬ s.isOn name)
    lastModified := .of now }

/-- Every stroke is on one of the layers. -/
def Anchored (p : Project) : Prop := ∀ s ∈ p.strokes.value, ∃ l ∈ p.layers.value, s.isOn l.id

/-! ## Removing at once -/

theorem removeLayer_eq_without (p : Project) (layer : String) (now : Int) :
    p.removeLayer layer now = p.without [layer] now := by
  have hname (name : String) : (name != layer) = decide (name ∉ [layer]) := by
    rw [Bool.eq_iff_iff]
    simp
  have hon (s : Stroke) : (!s.isOn layer) = decide (∀ name ∈ [layer], ¬ s.isOn name) := by
    rw [Bool.eq_iff_iff]
    simp
  simp only [removeLayer, without, hname, hon]

theorem without_without (p : Project) (names more : List String) (now later : Int) :
    (p.without names now).without more later = p.without (names ++ more) later := by
  have hnames (name : String) :
      (decide (name ∉ more) && decide (name ∉ names)) = decide (name ∉ names ++ more) := by
    rw [← Bool.decide_and, decide_eq_decide, List.mem_append, not_or, and_comm]
  have hon (s : Stroke) :
      (decide (∀ name ∈ more, ¬ s.isOn name) && decide (∀ name ∈ names, ¬ s.isOn name)) =
        decide (∀ name ∈ names ++ more, ¬ s.isOn name) := by
    rw [← Bool.decide_and, decide_eq_decide, List.forall_mem_append, and_comm]
  simp only [without, Slot.of, List.filter_filter, hnames, hon]

/-- Only which names there are counts. -/
theorem without_congr (p : Project) {names others : List String} (h : ∀ name, name ∈ names ↔ name ∈ others)
    (now : Int) : p.without names now = p.without others now := by
  simp only [without, h]

/-- What is left of the strokes has its layers among what is left of these. -/
theorem Anchored.without {p : Project} (h : p.Anchored) (names : List String) (now : Int) :
    (p.without names now).Anchored := by
  intro s hs
  obtain ⟨hs, hkept⟩ := List.mem_filter.1 hs
  obtain ⟨l, hl, hlayer⟩ := h s hs
  exact ⟨l, List.mem_filter.2 ⟨hl, decide_eq_true fun hmem => of_decide_eq_true hkept l.id hmem hlayer⟩, hlayer⟩

/-! ## Removing one after the other -/

/-- A run of removals takes away at once all that it names. -/
theorem removeLayers_eq (p : Project) (removal : String × Int) (rest : List (String × Int)) :
    p.removeLayers (removal :: rest) =
      p.without ((removal :: rest).map (·.1)) ((removal :: rest).getLast (List.cons_ne_nil removal rest)).2 := by
  induction rest generalizing p removal with
  | nil => exact removeLayer_eq_without p removal.1 removal.2
  | cons next rest ih =>
    calc p.removeLayers (removal :: next :: rest)
        = (p.removeLayer removal.1 removal.2).removeLayers (next :: rest) := rfl
      _ = (p.without [removal.1] removal.2).without ((next :: rest).map (·.1)) _ := by
          rw [ih, removeLayer_eq_without]
      _ = p.without ((removal :: next :: rest).map (·.1)) _ := without_without p [removal.1] _ _ _
      _ = _ := by rw [List.getLast_cons (List.cons_ne_nil next rest)]

/-- **What is left after removals is what none of them names**, in its order, and
nothing else changes but the time. So neither the order of the removals counts nor
how often a layer is named, and no stroke that is left loses its layer. -/
theorem removeLayers_leaves (p : Project) (removals : List (String × Int)) :
    (p.removeLayers removals).layers.value = p.layers.value.filter (·.id ∉ removals.map (·.1)) ∧
      (p.removeLayers removals).strokes.value =
        p.strokes.value.filter (fun s => ∀ name ∈ removals.map (·.1), ¬ s.isOn name) ∧
      (p.removeLayers removals).id = p.id ∧ (p.removeLayers removals).name = p.name ∧
      (p.removeLayers removals).settings = p.settings ∧
      (∀ others : List (String × Int), (∀ name, name ∈ removals.map (·.1) ↔ name ∈ others.map (·.1)) →
        ∀ time, { p.removeLayers removals with lastModified := time } =
          { p.removeLayers others with lastModified := time }) ∧
      (p.Anchored → (p.removeLayers removals).Anchored) := by
  cases removals with
  | nil =>
    refine ⟨by simp [removeLayers], by simp [removeLayers], rfl, rfl, rfl, fun others hothers time => ?_, fun h => h⟩
    cases others with
    | nil => rfl
    | cons other more => exact absurd ((hothers other.1).2 List.mem_cons_self) List.not_mem_nil
  | cons removal rest =>
    rw [removeLayers_eq]
    refine ⟨rfl, rfl, rfl, rfl, rfl, fun others hothers time => ?_, fun h => h.without _ _⟩
    cases others with
    | nil => exact absurd ((hothers removal.1).1 List.mem_cons_self) List.not_mem_nil
    | cons other more =>
      rw [removeLayers_eq]
      have heq := p.without_congr hothers 0
      exact congrArg (fun q : Project => { q with lastModified := time }) heq

/-- Two layers of one name, one more, and a stroke on each of the names. -/
def doubled : Project where
  id := .of "p"
  name := .of "Doubled"
  lastModified := .of 0
  layers := .of [⟨"a", "First", .of true, true⟩, ⟨"b", "Second", .of false, true⟩, ⟨"a", "Third", .of true, true⟩]
  strokes := .of [⟨"1", "a", "#ff0000", 2, .of 6, .of [], true⟩, ⟨"2", "b", "#00ff00", 2, .of 6, .of [], true⟩]
  settings := .default .default

/-- A layer taken away twice, with one between that there is not, and once. -/
theorem removeLayers_leaves_doubled :
    (∀ name, name ∈ [("a", (1 : Int)), ("c", 2), ("a", 3)].map (·.1) ↔ name ∈ [("c", (5 : Int)), ("a", 4)].map (·.1)) ∧
      doubled.Anchored ∧
      { doubled.removeLayers [("a", 1), ("c", 2), ("a", 3)] with lastModified := doubled.lastModified } =
        { doubled.removeLayers [("c", 5), ("a", 4)] with lastModified := doubled.lastModified } ∧
      (doubled.removeLayers [("a", 1), ("c", 2), ("a", 3)]).Anchored ∧
      (doubled.removeLayers [("a", 1), ("c", 2), ("a", 3)]).strokes.value.map (·.id) = ["2"] ∧
      (doubled.removeLayers [("a", 1), ("c", 2), ("a", 3)]).lastModified = .of 3 := by
  have hnames : ∀ name, name ∈ [("a", (1 : Int)), ("c", 2), ("a", 3)].map (·.1) ↔
      name ∈ [("c", (5 : Int)), ("a", 4)].map (·.1) := by
    intro name
    simp only [List.map_cons, List.map_nil, List.mem_cons, List.not_mem_nil, or_false]
    tauto
  have hanchored : doubled.Anchored := by simp [Anchored, doubled, Slot.of, Stroke.isOn]
  obtain ⟨-, -, -, -, -, hothers, hleft⟩ := doubled.removeLayers_leaves [("a", 1), ("c", 2), ("a", 3)]
  exact ⟨hnames, hanchored, hothers _ hnames _, hleft hanchored, by decide, rfl⟩

end SketchTurtle.Project
